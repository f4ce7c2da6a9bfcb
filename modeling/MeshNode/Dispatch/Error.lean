/-
# Dispatch errors

Why a message or a request did not reach a handler, or was not handled.  The sidecar is told
no more than the kind of error; the cause is logged.

* `DispatchError.message` is the text for the log, `DispatchError.response` the answer.
-/
import MeshNode.Http.Message
import MeshNode.Log

namespace MeshNode

/-- Why something that came in was not handled. -/
inductive DispatchError
  | unknownChannel (name : String)
  | unknownRoute (path : String)
  | malformedEnvelope (channel : String) (cause : Json.Error)
  | handlerFailed (channel : String) (reason : String)

namespace DispatchError

/-- The text of an error. -/
def message : DispatchError → String
  | .unknownChannel name => "Channel not found: " ++ name
  | .unknownRoute path => "Route not found: " ++ path
  | .malformedEnvelope channel cause =>
    "Malformed envelope on channel " ++ channel ++ ": " ++ cause.message
  | .handlerFailed channel reason => "Handler for channel " ++ channel ++ " failed: " ++ reason

/-- The error under an error. -/
def source? : DispatchError → Option Json.Error
  | .malformedEnvelope _ cause => some cause
  | _ => none

/-- The status of the answer. -/
def status : DispatchError → Status
  | .unknownChannel _ | .unknownRoute _ => .notFound
  | .malformedEnvelope _ _ => .badRequest
  | .handlerFailed _ _ => .internalServerError

/-- What the sidecar is told. -/
def publicText : DispatchError → String
  | .unknownChannel _ | .unknownRoute _ => "No handler registered"
  | .malformedEnvelope _ _ => "Malformed message"
  | .handlerFailed _ _ => "Error handling message"

/-- The answer. -/
def response (e : DispatchError) : Response :=
  .ofJson e.status (.obj [("error", .str e.publicText)])

/-- What is logged. -/
def log (e : DispatchError) : LogEvent :=
  match e with
  | .unknownChannel _ | .unknownRoute _ =>
    ⟨.warn, "no handler registered", [("error", e.message)]⟩
  | .malformedEnvelope _ _ => ⟨.warn, "rejecting message", [("error", e.message)]⟩
  | .handlerFailed _ _ => ⟨.error, "channel handler failed", [("error", e.message)]⟩

end DispatchError
end MeshNode
