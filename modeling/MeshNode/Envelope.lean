/-
# Envelopes

What travels over a channel: a payload under the key `data`.  The reader takes an object that
has the member once, in any place and among any others, or an array of the payload alone.
The envelope itself counts as one open container, so a payload may open one fewer than a
bare value.

* `Envelope.write` is the text of an envelope;
* `Envelope.reader` and `Envelope.ofBytes` are its reader.
-/
import MeshNode.Json.Read

namespace MeshNode

open Json

/-- A payload on its way over a channel. -/
structure Envelope where
  data : Json
  deriving Inhabited

namespace Envelope

/-- The name of the member that holds the payload. -/
def dataField : String := "data"

/-- The value of an envelope. -/
def toJson (e : Envelope) : Json := .obj [(dataField, e.data)]

/-- The text of an envelope. -/
def write (e : Envelope) : Bytes := e.toJson.write

/-- A payload inside an envelope. -/
def payload : Reader Json := Json.value (nesting - 1)

/-- A member of an envelope: the payload, or one that is passed over. -/
def member (key : String) (held : Option Json) : Reader (Option Json) :=
  if key = dataField then fieldOnce dataField held payload
  else fun limit s => (memberValue skip limit s).map fun (_, s) => (held, s)

/-- An envelope written as an object. -/
def fromObject : Reader Envelope := fun limit s =>
  match members member none limit s with
  | .error e => .error e
  | .ok (some data, s) => .ok (⟨data⟩, s)
  | .ok (none, _) => .error (.mismatch (.missingField dataField))

/-- An envelope written as an array. -/
def fromArray : Reader Envelope := fun limit s =>
  match optionalItem true payload limit s with
  | .error e => .error e
  | .ok (some data, s) => .ok (⟨data⟩, s)
  | .ok (none, _) => .error (.mismatch (.tooShort 0 "Envelope" 1))

/-- The envelope at the start of a text. -/
def reader : Reader Envelope := record "Envelope" fromObject fromArray

/-- A whole text as an envelope. -/
def ofBytes (s : Bytes) : Except Error Envelope := fromBytes reader s

instance : BEq Envelope := ⟨fun a b => a.data == b.data⟩

end Envelope
end MeshNode
