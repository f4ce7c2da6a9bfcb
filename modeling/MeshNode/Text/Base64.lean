/-
# Base64

Bytes as text in an alphabet of 64 characters: three bytes make four characters, and the last
group is filled up with equals signs.
-/
import MeshNode.Text.Utf8

namespace MeshNode.Text.Base64

/-- The character of a number below 64. -/
def digit (n : Nat) : Char :=
  Char.ofNat <|
    if n < 26 then 0x41 + n
    else if n < 52 then 0x61 + (n - 26)
    else if n < 62 then 0x30 + (n - 52)
    else if n = 62 then 0x2B
    else 0x2F

/-- The first characters of a group of 24 bits. -/
def group (count bits : Nat) : List Char :=
  (([18, 12, 6, 0].map fun shift => digit (bits / Nat.pow 2 shift % 64)).take count) ++
    List.replicate (4 - count) '='

/-- The text of a list of bytes. -/
def encode : Bytes → List Char
  | [] => []
  | [a] => group 2 (a.toNat * 0x10000)
  | [a, b] => group 3 (a.toNat * 0x10000 + b.toNat * 0x100)
  | a :: b :: c :: rest => group 4 (a.toNat * 0x10000 + b.toNat * 0x100 + c.toNat) ++ encode rest

end MeshNode.Text.Base64
