/-
# Written JSON

The compact text of a value: no white space, members in their order, and of the characters
of a string only the quotation mark, the backslash and the control characters below the
space are escaped.

* `Literal.bytes` is the text of a string;
* `Json.write` is the text of a value;
* `writeOnto` builds it back to front, so that a long array costs no depth.
-/
import MeshNode.Decimal.Layout
import MeshNode.Json.Token
import MeshNode.Json.Value

namespace MeshNode.Json

open Token

/-! ## 1. Strings -/

namespace Literal

/-- The hexadecimal digit of a number below sixteen, in lower case. -/
def hexDigit (n : Nat) : UInt8 := .ofNat (if n < 10 then 0x30 + n else 0x57 + n)

/-- How a character stands in a string literal. -/
def charBytes (c : Char) : Bytes :=
  let n := c.toNat
  if c = '"' then [backslash, quote]
  else if c = '\\' then [backslash, backslash]
  else if n < 0x20 then
    if n = 0x08 then [backslash, 0x62]
    else if n = 0x09 then [backslash, 0x74]
    else if n = 0x0A then [backslash, 0x6E]
    else if n = 0x0C then [backslash, 0x66]
    else if n = 0x0D then [backslash, 0x72]
    else [backslash, letterU, zero, zero, hexDigit (n / 16), hexDigit (n % 16)]
  else Utf8.encodeChar c

/-- The text between the quotation marks. -/
def inner (cs : List Char) : Bytes := cs.flatMap charBytes

/-- A string with its quotation marks. -/
def bytes (s : String) : Bytes := quote :: (inner s.toList ++ [quote])

end Literal

/-! ## 2. Numbers -/

/-- How doubles are written in JSON: positionally from a hundred-thousandth up to ten to the
fifteenth, always with a point or an exponent; what is no finite number becomes `null`. -/
def floatLayout : Decimal.Layout := ⟨some (-5), some 15, ".0", "+", "null", "null", "null"⟩

/-- The bytes of an ASCII text. -/
def ascii (s : String) : Bytes := s.toList.map fun c => .ofNat c.toNat

/-- The text of a whole number. -/
def intBytes (n : Int) : Bytes :=
  let digits : Bytes := (Nat.toDigits 10 n.natAbs).map fun c => .ofNat c.toNat
  if n < 0 then minus :: digits else digits

/-- The text of a double. -/
def floatBytes (x : Float) : Bytes := ascii (floatLayout.write x)

/-! ## 3. Values -/

mutual
/-- The text of a value, back to front, in front of `acc`. -/
def writeOnto (acc : Bytes) : Json → Bytes
  | .null => nullWord.reverse ++ acc
  | .bool true => trueWord.reverse ++ acc
  | .bool false => falseWord.reverse ++ acc
  | .int n => (intBytes n).reverse ++ acc
  | .float x => (floatBytes x).reverse ++ acc
  | .str s => (Literal.bytes s).reverse ++ acc
  | .arr items => closeBracket :: writeItems (openBracket :: acc) true items
  | .obj members => closeBrace :: writeMembers (openBrace :: acc) true members
/-- Items, a comma in front of each but the first. -/
def writeItems (acc : Bytes) (first : Bool) : List Json → Bytes
  | [] => acc
  | v :: rest => writeItems (writeOnto (if first then acc else comma :: acc) v) false rest
/-- Members, a comma in front of each but the first. -/
def writeMembers (acc : Bytes) (first : Bool) : List (String × Json) → Bytes
  | [] => acc
  | (k, v) :: rest =>
    let acc := if first then acc else comma :: acc
    writeMembers (writeOnto (colon :: ((Literal.bytes k).reverse ++ acc)) v) false rest
end

/-- The compact text of a value. -/
def write (v : Json) : Bytes := (writeOnto [] v).reverse

end MeshNode.Json
