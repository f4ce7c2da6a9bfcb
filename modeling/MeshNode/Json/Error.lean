/-
# JSON errors

Why a text is not the value that was asked for.  Three classes matter to a caller: the text
ended too early, it is not JSON, or it is JSON of another shape.  Only the third has a cause
worth telling apart; the first two are marks in a message.  A text that stands inside another is
read on its own, and whatever is wrong with it is of the third class.

* `Error.category` and `Error.message` are the class and the text;
* `Mismatch` is the cause of the third class, `Found` and `Expected` its two sides.
-/
import MeshNode.Json.Write
import MeshNode.Text.Quoted

namespace MeshNode.Json

/-- What stood in the text. -/
inductive Found
  | null
  | bool (b : Bool)
  | int (n : Int)
  | float (x : Float)
  | text (s : String)
  | array
  | object

/-- What a reader asked for; a record is named after what it describes. -/
inductive Expected
  | record (name : String)
  | text
  | object
  | array
  | u32
  | raw
  deriving DecidableEq, Repr

/-- How JSON can be of the wrong shape. -/
inductive Mismatch
  | missingField (name : String)
  | duplicateField (name : String)
  | wrongType (found : Found) (expected : Expected)
  | wrongValue (found : Found) (expected : Expected)
  | tooShort (length : Nat) (record : String) (fields : Nat)

/-- Why a text is not the value that was asked for. -/
inductive Error
  | endOfText
  | malformed
  | mismatch (cause : Mismatch)
  | inside (cause : Error)

namespace Found

/-- What stands in a value. -/
def ofJson : Json → Found
  | .null => .null
  | .bool b => .bool b
  | .int n => .int n
  | .float x => .float x
  | .str s => .text s
  | .arr _ => .array
  | .obj _ => .object

/-- How a message names what it found. -/
def describe : Found → String
  | .null => "null"
  | .bool b => "boolean `" ++ (if b then "true" else "false") ++ "`"
  | .int n => "integer `" ++ toString n ++ "`"
  | .float x => "floating point `" ++ floatLayout.write x ++ "`"
  | .text s => "string " ++ Text.quoted s
  | .array => "sequence"
  | .object => "map"

end Found

/-- How a message names what was asked for. -/
def Expected.describe : Expected → String
  | .record name => "struct " ++ name
  | .text => "a string"
  | .object => "a map"
  | .array => "a sequence"
  | .u32 => "u32"
  | .raw => "raw value"

/-- The text of a mismatch. -/
def Mismatch.message : Mismatch → String
  | .missingField name => "missing field `" ++ name ++ "`"
  | .duplicateField name => "duplicate field `" ++ name ++ "`"
  | .wrongType found expected =>
    "invalid type: " ++ found.describe ++ ", expected " ++ expected.describe
  | .wrongValue found expected =>
    "invalid value: " ++ found.describe ++ ", expected " ++ expected.describe
  | .tooShort length record fields =>
    "invalid length " ++ toString length ++ ", expected struct " ++ record ++ " with " ++
      toString fields ++ (if fields = 1 then " element" else " elements")

namespace Error

/-- The class of an error. -/
def category : Error → String
  | .endOfText => "eof"
  | .malformed => "syntax"
  | .mismatch _ | .inside _ => "data"

/-- The text of an error. -/
def message : Error → String
  | .endOfText => "<eof>"
  | .malformed => "<syntax>"
  | .mismatch cause => cause.message
  | .inside cause => cause.message

end Error
end MeshNode.Json
