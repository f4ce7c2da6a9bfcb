/-
# Percent-encoding

Text in the parts of a URL.  A character outside ASCII, and every ASCII character that the
part at hand reserves, is written as its bytes, each behind a percent sign with two upper-case
hexadecimal digits.

* `encode reserved` writes a text for a part that reserves the given characters;
* the sets of reserved characters of the parts are `controls`, `fragment`, `query`, `path`,
  `segment` and `userInfo`;
* `decode` takes every well-formed escape back, once, and leaves everything else alone.
-/
import MeshNode.Text.Utf8

namespace MeshNode.Url.Percent

/-! ## 1. Writing -/

/-- The hexadecimal digit of a number below sixteen, in upper case. -/
def hexDigit (n : Nat) : Char := Char.ofNat (if n < 10 then 0x30 + n else 0x37 + n)

/-- A byte behind a percent sign. -/
def escape (b : UInt8) : List Char := ['%', hexDigit (b.toNat / 16), hexDigit (b.toNat % 16)]

/-- A character in a part that reserves some ASCII characters. -/
def encodeChar (reserved : Char → Bool) (c : Char) : List Char :=
  if c.toNat < 0x80 && !reserved c then [c] else (Utf8.encodeChar c).flatMap escape

/-- A text in a part that reserves some ASCII characters. -/
def encode (reserved : Char → Bool) (cs : List Char) : List Char :=
  cs.flatMap (encodeChar reserved)

/-! ## 2. What the parts of a URL reserve -/

/-- The control characters of ASCII. -/
def controls (c : Char) : Bool := c.toNat < 0x20 || c.toNat == 0x7F

/-- A fragment reserves what would end a quoted URL. -/
def fragment (c : Char) : Bool := controls c || " \"<>`".toList.contains c

/-- A query reserves nearly the same, and the sign that ends it. -/
def query (c : Char) : Bool := controls c || " \"#<>".toList.contains c

/-- In the schemes of the web a query reserves the apostrophe too. -/
def webQuery (c : Char) : Bool := query c || c == '\''

/-- A path reserves the signs that end it, and braces. -/
def path (c : Char) : Bool := fragment c || "#?\x7b\x7d".toList.contains c

/-- A segment that is given as a whole reserves what separates segments, and the percent sign. -/
def segment (c : Char) : Bool := path c || c == '/' || c == '%'

/-- In the schemes of the web a backslash separates segments too. -/
def webSegment (c : Char) : Bool := segment c || c == '\\'

/-- A user name or password reserves everything with a meaning in an authority. -/
def userInfo (c : Char) : Bool := path c || "/:;=@[\\]^|".toList.contains c

/-! ## 3. Reading -/

/-- The value of a hexadecimal digit in either case. -/
def hexValue? (b : UInt8) : Option Nat :=
  let n := b.toNat
  if 0x30 ≤ n ∧ n ≤ 0x39 then some (n - 0x30)
  else if 0x41 ≤ n ∧ n ≤ 0x46 then some (n - 0x37)
  else if 0x61 ≤ n ∧ n ≤ 0x66 then some (n - 0x57)
  else none

/-- The byte of an escape, from its two digits. -/
def escaped? (h l : UInt8) : Option UInt8 :=
  match hexValue? h, hexValue? l with
  | some h, some l => some (.ofNat (16 * h + l))
  | _, _ => none

/-- The bytes with every well-formed escape taken back. -/
def decode : Bytes → Bytes
  | [] => []
  | [a] => [a]
  | [a, b] => [a, b]
  | a :: b :: c :: rest =>
    if a = 0x25 then
      match escaped? b c with
      | some byte => byte :: decode rest
      | none => a :: decode (b :: c :: rest)
    else a :: decode (b :: c :: rest)

/-- The text behind the escapes, if its bytes are well-formed. -/
def decodeText? (s : String) : Option String := Utf8.decode? (decode (Utf8.encode s))

end MeshNode.Url.Percent
