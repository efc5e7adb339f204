import Mathlib.Algebra.GroupWithZero.Nat
import Mathlib.Data.List.Basic

/-! # Strings of the source's language

Lengths count UTF-16 units, and white space is that of `trim` and of `\s`. -/

namespace VicoopBridge

def isJsWhitespace (c : Char) : Bool :=
  c.val ∈ [0x9, 0xA, 0xB, 0xC, 0xD, 0x20, 0xA0, 0x1680, 0x2028, 0x2029, 0x202F, 0x205F, 0x3000,
    0xFEFF] || (0x2000 ≤ c.val && c.val ≤ 0x200A)

def trim (text : String) : String :=
  String.ofList
    ((text.toList.dropWhile isJsWhitespace).reverse.dropWhile isJsWhitespace).reverse

def utf16Size (c : Char) : ℕ := if c.val ≤ 0xFFFF then 1 else 2

/-- `length`, in UTF-16 units. -/
def utf16Length (cs : List Char) : ℕ := (cs.map utf16Size).sum

/-- `new TextEncoder().encode(value).length` -/
def utf8Length (cs : List Char) : ℕ := (cs.map Char.utf8Size).sum

end VicoopBridge
