/-
# IP addresses

Addresses of version 4 and 6 with their texts.  Version 4 is four decimal numbers below 256
without leading zeros.  Version 6 is eight groups of up to four hexadecimal digits, where
`::` stands once for one or more groups of zero and the last two groups may be written as an
address of version 4.

* `IPv4.parse?`, `IPv6.parse?`, `IPAddress.parse?` read a whole text;
* `IPv4.text`, `IPv6.text`, `IPAddress.text` write the recommended one: lower case, no leading
  zeros, `::` for the longest run of two or more zero groups, the first of equals; an address
  that maps one of version 4 shows it;
* `IPv6.compressed` is the same without the exception for mapped addresses.
-/
import MeshNode.Text.Split

namespace MeshNode

open Text

/-- An address of version 4. -/
structure IPv4 where
  a : UInt8
  b : UInt8
  c : UInt8
  d : UInt8
  deriving DecidableEq, Repr

/-- An address of version 6. -/
structure IPv6 where
  a : UInt16
  b : UInt16
  c : UInt16
  d : UInt16
  e : UInt16
  f : UInt16
  g : UInt16
  h : UInt16
  deriving DecidableEq, Repr

/-- An address of either version. -/
inductive IPAddress
  | v4 (address : IPv4)
  | v6 (address : IPv6)
  deriving DecidableEq, Repr

/-! ## 1. Digits -/

/-- The value of a digit below the base, letters counting on from ten in either case. -/
def digitValue? (base : Nat) (c : Char) : Option Nat :=
  let n := c.toNat
  let value :=
    if 0x30 ≤ n ∧ n ≤ 0x39 then n - 0x30
    else if 0x61 ≤ n ∧ n ≤ 0x7A then n - 0x57
    else if 0x41 ≤ n ∧ n ≤ 0x5A then n - 0x37
    else base
  if value < base then some value else none

/-- The number that digits spell in a base; no digits spell none. -/
def numberIn? (base : Nat) : List Char → Option Nat
  | [] => none
  | c :: rest =>
    (c :: rest).foldlM (fun n c => (digitValue? base c).map (n * base + ·)) 0

/-! ## 2. Version 4 -/

namespace IPv4

/-- A number below 256 in decimal, without leading zeros. -/
def octet? (cs : List Char) : Option UInt8 :=
  if 3 < cs.length ∨ (cs.head? = some '0' ∧ 1 < cs.length) then none
  else (numberIn? 10 cs).bind fun n => if n < 256 then some (.ofNat n) else none

/-- The address that a text spells. -/
def parse? (cs : List Char) : Option IPv4 :=
  match splitOn '.' cs with
  | [a, b, c, d] => do some ⟨← octet? a, ← octet? b, ← octet? c, ← octet? d⟩
  | _ => none

/-- The address of a 32-bit number, most significant octet first. -/
def ofNat (n : Nat) : IPv4 :=
  ⟨.ofNat (n / 0x1000000), .ofNat (n / 0x10000), .ofNat (n / 0x100), .ofNat n⟩

/-- The text of an address. -/
def text (x : IPv4) : List Char :=
  joinWith ['.'] ([x.a, x.b, x.c, x.d].map fun o => Nat.toDigits 10 o.toNat)

end IPv4

/-! ## 3. Version 6 -/

namespace IPv6

/-- The groups, most significant first. -/
def groups (x : IPv6) : List UInt16 := [x.a, x.b, x.c, x.d, x.e, x.f, x.g, x.h]

/-- The address of eight groups. -/
def ofGroups? : List UInt16 → Option IPv6
  | [a, b, c, d, e, f, g, h] => some ⟨a, b, c, d, e, f, g, h⟩
  | _ => none

/-- A group of one to four hexadecimal digits. -/
def group? (cs : List Char) : Option UInt16 :=
  if 4 < cs.length then none else (numberIn? 16 cs).map UInt16.ofNat

/-- The two groups that an address of version 4 fills. -/
def ofIPv4 (x : IPv4) : List UInt16 :=
  [x.a.toUInt16 * 256 + x.b.toUInt16, x.c.toUInt16 * 256 + x.d.toUInt16]

/-- The groups of pieces; the last piece may be an address of version 4 if `v4` allows it. -/
def groupsOf? (v4 : Bool) : List (List Char) → Option (List UInt16)
  | [] => some []
  | [piece] =>
    match group? piece with
    | some g => some [g]
    | none => if v4 then (IPv4.parse? piece).map ofIPv4 else none
  | piece :: rest => do
    let g ← group? piece
    let gs ← groupsOf? v4 rest
    some (g :: gs)

/-- The groups of one side of the abbreviation, which may be empty. -/
def sideOf? (v4 : Bool) (cs : List Char) : Option (List UInt16) :=
  if cs.isEmpty then some [] else groupsOf? v4 (splitOn ':' cs)

/-- The text around the first `::`. -/
def splitAbbreviation? : List Char → Option (List Char × List Char)
  | [] => none
  | [_] => none
  | c :: c' :: rest =>
    if c = ':' ∧ c' = ':' then some ([], rest)
    else (splitAbbreviation? (c' :: rest)).map fun (front, back) => (c :: front, back)

/-- The address that a text spells. -/
def parse? (cs : List Char) : Option IPv6 :=
  match splitAbbreviation? cs with
  | none => (groupsOf? true (splitOn ':' cs)).bind ofGroups?
  | some (front, back) => do
    let front ← sideOf? false front
    let back ← sideOf? true back
    if 7 < front.length + back.length then none
    else ofGroups? (front ++ List.replicate (8 - front.length - back.length) 0 ++ back)

/-- How many groups at the start of a list are zero. -/
def zeroRun (gs : List UInt16) : Nat := (gs.takeWhile (· == 0)).length

/-- The position and length of the longest run of zero groups, the first of equals, in a list
that starts at `position`. -/
def longestRun (position : Nat) : List UInt16 → Nat × Nat
  | [] => (position, 0)
  | g :: gs =>
    let here := zeroRun (g :: gs)
    let later := longestRun (position + 1) gs
    if later.2 ≤ here then (position, here) else later

/-- The text of a group. -/
def groupText (g : UInt16) : List Char := Nat.toDigits 16 g.toNat

/-- Groups with a colon between each two. -/
def joined (gs : List UInt16) : List Char := joinWith [':'] (gs.map groupText)

/-- The text of an address in hexadecimal groups alone. -/
def compressed (x : IPv6) : List Char :=
  let (position, length) := longestRun 0 x.groups
  if length < 2 then joined x.groups
  else joined (x.groups.take position) ++ [':', ':'] ++ joined (x.groups.drop (position + length))

/-- The address of version 4 that an address maps. -/
def mapped? (x : IPv6) : Option IPv4 :=
  if x.groups.take 6 = [0, 0, 0, 0, 0, 0xFFFF] then
    some (.ofNat (x.g.toNat * 0x10000 + x.h.toNat))
  else none

/-- The text of an address. -/
def text (x : IPv6) : List Char :=
  match x.mapped? with
  | some v4 => [':', ':', 'f', 'f', 'f', 'f', ':'] ++ v4.text
  | none => x.compressed

end IPv6

/-! ## 4. Either version -/

namespace IPAddress

/-- The address that a text spells. -/
def parse? (cs : List Char) : Option IPAddress :=
  ((IPv4.parse? cs).map .v4).or ((IPv6.parse? cs).map .v6)

/-- The text of an address. -/
def text : IPAddress → String
  | .v4 x => String.ofList x.text
  | .v6 x => String.ofList x.text

/-- The text of an address with a port; version 6 is bracketed. -/
def textWithPort (x : IPAddress) (port : Nat) : String :=
  match x with
  | .v4 _ => x.text ++ ":" ++ toString port
  | .v6 _ => "[" ++ x.text ++ "]:" ++ toString port

/-- The address of the host itself, version 4. -/
def localhost : IPAddress := .v4 ⟨127, 0, 0, 1⟩

end IPAddress
end MeshNode
