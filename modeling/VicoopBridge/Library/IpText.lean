import Mathlib.Data.List.Basic

/-! # The texts of IP addresses

An IPv4 address is written as four decimal numbers. An IPv6 address is eight groups of hexadecimal
digits, of which one run of zeros may be left out, and the last two may be written as an IPv4
address. A zone may follow. -/

namespace VicoopBridge.Library.IpText

/-! ## IPv4 -/

structure Octets where
  a : UInt8
  b : UInt8
  c : UInt8
  d : UInt8
  deriving DecidableEq

def decimal (n : ℕ) : List Char := Nat.toDigits 10 n

def Octets.text (o : Octets) : List Char :=
  decimal o.a.toNat ++ '.' :: decimal o.b.toNat ++ '.' :: decimal o.c.toNat ++
    '.' :: decimal o.d.toNat

/-- The two groups of sixteen bits. -/
def Octets.groups (o : Octets) : List ℕ :=
  [256 * o.a.toNat + o.b.toNat, 256 * o.c.toNat + o.d.toNat]

/-! ## IPv6 -/

def isHexDigit (c : Char) : Bool :=
  c.isDigit || ('a' ≤ c && c ≤ 'f') || ('A' ≤ c && c ≤ 'F')

def hexDigitValue (c : Char) : ℕ :=
  if c.isDigit then c.toNat - 48 else if 'a' ≤ c then c.toNat - 87 else c.toNat - 55

def hexValue (digits : List Char) : ℕ := digits.foldl (fun n c => 16 * n + hexDigitValue c) 0

/-- One to four hexadecimal digits, of any case. -/
structure Group where
  digits : List Char
  hex : ∀ c ∈ digits, isHexDigit c = true
  length_pos : 0 < digits.length
  length_le : digits.length ≤ 4

def Group.value (g : Group) : ℕ := hexValue g.digits

/-- A text of an IPv6 address. With a `tail` there is a `::` between the two lists of groups, in
place of one group of zeros or more. -/
structure Spelling where
  head : List Group
  tail : Option (List Group)
  dotted : Option Octets
  zone : Option (List Char)
  fits : match tail with
    | none => head.length + (if dotted.isSome then 2 else 0) = 8
    | some tail => head.length + tail.length + (if dotted.isSome then 2 else 0) ≤ 7

namespace Spelling

variable (s : Spelling)

/-- The parts between colons, of what is written behind the last of the groups too. -/
def parts (groups : List Group) : List (List Char) :=
  groups.map Group.digits ++ s.dotted.toList.map Octets.text

def values (groups : List Group) : List ℕ :=
  groups.map Group.value ++ (s.dotted.map Octets.groups).getD []

def body : List Char :=
  match s.tail with
  | none => [':'].intercalate (s.parts s.head)
  | some tail =>
      [':'].intercalate (s.head.map Group.digits) ++ ':' :: ':' :: [':'].intercalate (s.parts tail)

def text : List Char :=
  match s.zone with
  | none => s.body
  | some zone => s.body ++ '%' :: zone

/-- The address that is written: its eight groups. -/
def address : List ℕ :=
  match s.tail with
  | none => s.values s.head
  | some tail =>
      s.head.map Group.value ++
        List.replicate (8 - s.head.length - (s.values tail).length) 0 ++ s.values tail

end Spelling

/-! ## Embedded addresses -/

/-- The groups of the IPv6 addresses that stand for an IPv4 address: `::ffff:0:0/96`, `::/96`,
`64:ff9b::/96` and `2002::/16`. -/
inductive Embeds (o : Octets) : List ℕ → Prop where
  | mapped : Embeds o ([0, 0, 0, 0, 0, 0xffff] ++ o.groups)
  | compatible : Embeds o ([0, 0, 0, 0, 0, 0] ++ o.groups)
  | nat64 : Embeds o ([0x64, 0xff9b, 0, 0, 0, 0] ++ o.groups)
  | sixToFour (rest : List ℕ) : rest.length = 5 → Embeds o (0x2002 :: o.groups ++ rest)

end VicoopBridge.Library.IpText
