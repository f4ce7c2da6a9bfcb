/-
# Tokens and field values

What may stand for a method or a header name, and what may stand in a header value.

* `isToken` holds of the texts that name a method or a header;
* `isFieldValue` holds of the bytes that may be a header's value: any but control
  characters, of which the tab alone is allowed.
-/
import MeshNode.Text.Utf8

namespace MeshNode.Http

/-- Whether a character may stand in a token. -/
def isTokenChar (c : Char) : Bool := c.isAlphanum || "!#$%&'*+-.^_`|~".toList.contains c

/-- Whether a text is a token. -/
def isToken (s : String) : Bool := s != "" && s.toList.all isTokenChar

/-- Whether a byte may stand in a header value. -/
def isFieldByte (b : UInt8) : Bool := b == 0x09 || (0x20 ≤ b && b != 0x7F)

/-- Whether bytes may be a header value. -/
def isFieldValue (s : Bytes) : Bool := s.all isFieldByte

end MeshNode.Http
