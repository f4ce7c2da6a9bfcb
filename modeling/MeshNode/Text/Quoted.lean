/-
# Quoted text

The form in which messages show a text they were given: between quotation marks, with an
escape for each character that would be misread.  Quotation marks and backslashes take a
backslash, the usual control characters have their letters, and any other character that is
not printable, or that would be drawn onto its neighbour, is written by its number in
braces, in lower-case hexadecimal without leading zeros.
-/
import MeshNode.Text.Printable

namespace MeshNode.Text

/-- The escape that gives a character by its number. -/
def numberEscape (c : Char) : List Char :=
  '\\' :: 'u' :: '\x7b' :: (Nat.toDigits 16 c.toNat ++ ['\x7d'])

/-- How a character stands inside a quoted text. -/
def quoteChar (c : Char) : List Char :=
  if c = '"' then ['\\', '"']
  else if c = '\\' then ['\\', '\\']
  else if c = '\n' then ['\\', 'n']
  else if c = '\r' then ['\\', 'r']
  else if c = '\t' then ['\\', 't']
  else if c.toNat = 0 then ['\\', '0']
  else if ' ' ≤ c ∧ c ≤ '~' then [c]
  else if extendsPrevious c || !isPrintable c then numberEscape c
  else [c]

/-- A text between quotation marks. -/
def quoted (s : String) : String :=
  String.ofList ('"' :: (s.toList.flatMap quoteChar ++ ['"']))

/-- Several texts between quotation marks, in brackets. -/
def quotedList (items : List String) : String :=
  "[" ++ String.intercalate ", " (items.map quoted) ++ "]"

end MeshNode.Text
