/-
# Handlers

What a node does with a message or a request is the node's own affair.  To the library a
handler is something that can be run: it takes its input and whatever state the node keeps,
and ends in one of a few ways.

* `ChannelOutcome` and `RouteOutcome` are those ways;
* `Behavior` says what handlers of a node do;
* `HandlerError` and `Panic` are what a handler can fail with, `ChannelOutcome.failure?` the text
  of the failure.

A handler breaks down, if it does, while it runs, and not when it is called to give its run; and what
it leaves behind is well-behaved: an error can be written as a text, and whatever a breakdown throws
can be thrown away.
-/
import MeshNode.Gateway.Error
import MeshNode.Http.Message

namespace MeshNode

/-- What a handler gives as the cause of its failure. -/
inductive HandlerError
  | text (message : String)
  | name (cause : NameError)
  | json (cause : Json.Error)
  | gateway (cause : GatewayError)

namespace HandlerError

/-- The text of an error. -/
def message : HandlerError → String
  | .text message => message
  | .name cause => cause.message
  | .json cause => cause.message
  | .gateway cause => cause.message

/-- The form of an error for diagnosis, where there is one. -/
def detail? : HandlerError → Option String
  | .text message => some (Text.quoted message)
  | .name .empty => some "EmptyName"
  | .name (.notOneSegment given) => some ("InvalidName(" ++ Text.quoted given ++ ")")
  | .json _ | .gateway _ => none

end HandlerError

/-- What a handler that breaks down leaves behind. -/
inductive Panic
  | text (message : String)
  | other
  deriving DecidableEq, Repr

/-- The text of a breakdown, if it left one. -/
def Panic.text? : Panic → Option String
  | .text message => some message
  | .other => none

/-- How a channel handler ends. -/
inductive ChannelOutcome
  | done
  | failed (cause : HandlerError)
  | panicked (cause : Panic)

/-- The text of a failure; none when the handler did its work. -/
def ChannelOutcome.failure? : ChannelOutcome → Option String
  | .done => none
  | .failed cause => some cause.message
  | .panicked cause => some ("handler panicked: " ++ cause.text?.getD "unknown panic payload")

/-- How a route handler ends. -/
inductive RouteOutcome
  | responded (response : Response)
  | panicked (cause : Panic)
  deriving DecidableEq, Repr

/-- What handlers do.  A channel handler of type `κ` gets the payload of a message, a route
handler of type `ρ` the request as it came in; both may change the state of the node. -/
structure Behavior (κ ρ σ : Type) where
  channel : κ → Json → σ → ChannelOutcome × σ
  route : ρ → Inbound → σ → RouteOutcome × σ

end MeshNode
