/-
# Dispatch

What happens to a request that comes in.  Its path decides where it goes, and the registry
which handler runs; at most one does, at most once.  Everything that can be seen of it stands
in a `Dispatched`: the answer, the handlers that ran, the counts and the log.

* `dispatchChannel` delivers a message: its name first, then its size, then its handler, then
  its envelope;
* `dispatchRoute` hands a request to the handler of its route;
* `dispatch` chooses between them.

A channel handler that breaks down is contained; a route handler is not.
-/
import MeshNode.Counter
import MeshNode.Dispatch.Endpoint
import MeshNode.Dispatch.Error
import MeshNode.Envelope
import MeshNode.Handler
import MeshNode.Registry
import MeshNode.Url.Percent

namespace MeshNode

/-- What answers a request: a response, unless a route handler broke down. -/
inductive Answer
  | response (response : Response)
  | panicked (cause : Panic)
  deriving DecidableEq, Repr

/-- An answer as the method asks for it: HEAD wants no body. -/
def Answer.trimmed (answer : Answer) (method : Method) : Answer :=
  match answer with
  | .response r => .response (if method = .head then { r with body := [] } else r)
  | .panicked cause => .panicked cause

/-- A handler that ran, with its input. -/
inductive Invocation (κ ρ : Type)
  | channel (handler : κ) (data : Json)
  | route (handler : ρ) (request : Inbound)

/-- All that can be seen of a request that came in. -/
structure Dispatched (κ ρ σ : Type) where
  answer : Answer
  state : σ
  invocations : List (Invocation κ ρ) := []
  counts : List Count := []
  logs : List LogEvent := []

namespace Dispatch

variable {κ ρ σ : Type}

/-- The longest body of a message, in bytes. -/
def bodyLimit : Nat := 2 * 1024 * 1024

/-- The answer to a name with escapes that spell no text. -/
def unreadableName (parameter : String) : Response :=
  .ofText .badRequest ("Invalid URL: Invalid UTF-8 in `" ++ parameter ++ "`")

/-- The answer to a body beyond the limit. -/
def bodyTooLong : Response :=
  .ofText .payloadTooLarge "Failed to buffer the request body: length limit exceeded"

/-- The answer to a method that an endpoint does not have. -/
def wrongMethod (endpoint : Endpoint) : Response :=
  { status := .methodNotAllowed
    headers := [("allow", Utf8.encode (String.intercalate "," (endpoint.methods.map Method.text)))] }

/-- An answer that no handler gave. -/
def unhandled (response : Response) (state : σ) : Dispatched κ ρ σ :=
  { answer := .response response, state }

/-- An answer that tells of an error, which is logged and may be counted. -/
def failed (error : DispatchError) (counts : List Count) (invocations : List (Invocation κ ρ))
    (state : σ) : Dispatched κ ρ σ :=
  { answer := .response error.response, state, invocations, counts, logs := [error.log] }

/-- Delivers a message to the channel with an escaped name. -/
def dispatchChannel (behavior : Behavior κ ρ σ) (registry : Registry κ ρ) (segment : String)
    (body : Bytes) (state : σ) : Dispatched κ ρ σ :=
  match Url.Percent.decodeText? segment with
  | none => unhandled (unreadableName "name") state
  | some name =>
    if bodyLimit < body.length then unhandled bodyTooLong state
    else
      match registry.channel? name with
      | none => failed (.unknownChannel name) [.message Count.unregistered .unknown] [] state
      | some handler =>
        match Envelope.ofBytes body with
        | .error e => failed (.malformedEnvelope name e) [.message name .malformed] [] state
        | .ok envelope =>
          let (outcome, state) := behavior.channel handler envelope.data state
          let invocations := [.channel handler envelope.data]
          match outcome.failure? with
          | none =>
            { answer := .response { status := .ok }, state, invocations
              counts := [.message name .ok] }
          | some reason =>
            failed (.handlerFailed name reason) [.message name .failed] invocations state

/-- Hands a request to the route with an escaped path. -/
def dispatchRoute (behavior : Behavior κ ρ σ) (registry : Registry κ ρ) (path : String)
    (request : Inbound) (state : σ) : Dispatched κ ρ σ :=
  match Url.Percent.decodeText? path with
  | none => unhandled (unreadableName "path") state
  | some path =>
    match registry.route? path with
    | none => failed (.unknownRoute path) [] [] state
    | some handler =>
      let (outcome, state) := behavior.route handler request state
      { answer := match outcome with
          | .responded response => .response response
          | .panicked cause => .panicked cause
        state
        invocations := [.route handler request]
        counts := [.request path] }

/-- Whatever answers a request at its endpoint. -/
def serve (behavior : Behavior κ ρ σ) (registry : Registry κ ρ) (endpoint : Endpoint)
    (request : Inbound) (state : σ) : Dispatched κ ρ σ :=
  if endpoint.methods.contains request.method then
    match endpoint with
    | .channel segment => dispatchChannel behavior registry segment request.body state
    | .route path => dispatchRoute behavior registry path request state
  else unhandled (wrongMethod endpoint) state

/-- What happens to a request that comes in. -/
def dispatch (behavior : Behavior κ ρ σ) (registry : Registry κ ρ) (request : Inbound)
    (state : σ) : Dispatched κ ρ σ :=
  match Endpoint.ofPath? request.target.path with
  | none => unhandled { status := .notFound } state
  | some endpoint =>
    let served := serve behavior registry endpoint request state
    { served with answer := served.answer.trimmed request.method }

end Dispatch
end MeshNode
