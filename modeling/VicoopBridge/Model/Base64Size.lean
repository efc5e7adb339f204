import VicoopBridge.Library.Base64
import VicoopBridge.Model.FederatedPrincipal

/-! # The size of base64 text

The estimate that a limit is checked against before the text of a file is decoded, beside the
decoder of the runtime. -/

namespace VicoopBridge.Base64Size

open Library

/-- `=` -/
def equalsSign : UInt16 := 61

/-- Both alphabets: `+` and `-` are one digit, `/` and `_` another. -/
def sextet? (u : UInt16) : Option ℕ :=
  let n := u.toNat
  if 65 ≤ n ∧ n ≤ 90 then some (n - 65)
  else if 97 ≤ n ∧ n ≤ 122 then some (n - 71)
  else if 48 ≤ n ∧ n ≤ 57 then some (n + 4)
  else if n = 43 ∨ n = 45 then some 62
  else if n = 47 ∨ n = 95 then some 63
  else none

/-- The digits the decoder reads: it stops at the first `=` and skips whatever else is none. -/
def digits (b64 : JsText) : List ℕ := (b64.takeWhile (· ≠ equalsSign)).filterMap sextet?

/-- `Buffer.from(b64, 'base64')` -/
def decodeBase64 (b64 : JsText) : List UInt8 := Base64.bytesOf (digits b64)

/-- The `pad` of `decodedBase64Size`. -/
def padding (b64 : JsText) : ℕ :=
  if [equalsSign, equalsSign] <:+ b64 then 2 else if [equalsSign] <:+ b64 then 1 else 0

def decodedBase64Size (b64 : JsText) : ℤ :=
  if b64.length = 0 then 0
  else max 0 (((b64.length * 3 / 4 : ℕ) : ℤ) - padding b64)

end VicoopBridge.Base64Size
