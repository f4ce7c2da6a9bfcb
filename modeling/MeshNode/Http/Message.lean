/-
# Messages

Requests and responses.  A `Request` goes out to a URL; an `Inbound` request came in and names
its target alone.  Bodies are complete.

* `Response.ofText`, `ofJson`, `ofBytes` give a body with its content type;
* `Response.text` and `Response.json` are the two views of a body;
* `Response.relayed` is a response that was received, made ready to be sent on.
-/
import MeshNode.Http.Headers
import MeshNode.Http.Method
import MeshNode.Http.Status
import MeshNode.Http.Target
import MeshNode.Json.Read

namespace MeshNode

/-- A request on its way out. -/
structure Request where
  method : Method
  url : Url
  headers : Headers := []
  body : Bytes := []
  deriving DecidableEq, Repr

/-- A request that came in. -/
structure Inbound where
  method : Method
  target : Target
  headers : Headers := []
  body : Bytes := []
  deriving DecidableEq, Repr, Inhabited

/-- A response with its complete body. -/
structure Response where
  status : Status
  headers : Headers := []
  body : Bytes := []
  deriving DecidableEq, Repr, Inhabited

/-- The name of the header that declares the type of a body. -/
def contentType : String := "content-type"

namespace Response

/-! ## 1. Bodies with their types -/

/-- A body of a type. -/
def typed (status : Status) (type : String) (body : Bytes) : Response :=
  ⟨status, [(contentType, Utf8.encode type)], body⟩

/-- A text. -/
def ofText (status : Status) (text : String) : Response :=
  typed status "text/plain; charset=utf-8" (Utf8.encode text)

/-- A JSON value. -/
def ofJson (status : Status) (value : Json) : Response := typed status "application/json" value.write

/-- Bytes of no particular type. -/
def ofBytes (status : Status) (body : Bytes) : Response :=
  typed status "application/octet-stream" body

/-! ## 2. Views -/

/-- Whether the request succeeded. -/
def isSuccess (r : Response) : Bool := r.status.isSuccess

/-- The body as a text, with a replacement for what is none. -/
def text (r : Response) : String := Utf8.decodeLossy r.body

/-- The body as a JSON value. -/
def json (r : Response) : Except Json.Error Json := Json.ofBytes r.body

/-! ## 3. Sending on -/

/-- The headers that describe one connection and say nothing about the next. -/
def framing : List String := ["connection", "content-length", "transfer-encoding"]

/-- A received response made ready to be sent on: without the headers that belong to the
connection it came over, and declared as bytes unless it declares itself. -/
def relayed (r : Response) : Response :=
  { r with
    headers := (r.headers.removeAll framing).withDefaults
      [(contentType, Utf8.encode "application/octet-stream")] }

end Response
end MeshNode
