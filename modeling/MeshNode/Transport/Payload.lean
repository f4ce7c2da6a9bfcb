/-
# Payloads

What a caller hands over to be sent.  Mostly it is a JSON value; a value with an object whose
keys are no texts has no JSON form, and sending it fails before anything is sent.
-/
import MeshNode.Envelope

namespace MeshNode

/-- A value to be sent. -/
inductive Payload
  | json (value : Json)
  | unwritable
  deriving Inhabited

/-- Why a value has no written form, or a text is not the value it should be. -/
inductive EncodeError
  | keyNotText
  | json (cause : Json.Error)

/-- The text of the error. -/
def EncodeError.message : EncodeError → String
  | .keyNotText => "key must be a string"
  | .json cause => cause.message

namespace Payload

/-- The JSON text of a payload. -/
def write : Payload → Except EncodeError Bytes
  | .json value => .ok value.write
  | .unwritable => .error .keyNotText

/-- A payload in its envelope. -/
def wrapped : Payload → Payload
  | .json value => .json (Envelope.mk value).toJson
  | .unwritable => .unwritable

end Payload
end MeshNode
