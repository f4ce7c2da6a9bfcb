/-
# Outbound operations

Publishing and calling, seen as one: an operation has a destination, the destination has
segments behind the write address, and what is sent follows from the segments.

* `Operation` and `Destination`;
* `requests_eq`: the requests of an accepted operation are those of one call of the transport;
* `requests_head?`: the first of them is `Operation.first?`, if it arrives.
-/
import MeshNode.Gateway.Basic
import MeshNode.Proofs.Name
import MeshNode.Proofs.Transport.Call

namespace MeshNode.Gateway

/-- A gateway to the usual port. -/
def nearby : Gateway where
  writeAddress :=
    { scheme := "http", host := some (.name "localhost"), port := some 3047, path := .segments [""] }

/-- What an operation is meant for: a channel, or a path on a node. -/
inductive Destination
  | channel (name : String)
  | route (node path : String)
  deriving DecidableEq, Repr

/-- The pieces of a path. -/
def pathPieces (path : String) : List String := (Text.splitOn '/' path.toList).map String.ofList

/-- The segments of a destination behind the write address. -/
def Destination.segments : Destination → List String
  | .channel name => [channelSegment, name]
  | .route node path => routeSegment :: node :: pathPieces path

/-- What a node sends out. -/
inductive Operation
  | publish (channel : String) (payload : Payload)
  | call (node path : String) (method : Method) (body : Option Json)

namespace Operation

/-- The destination of an operation. -/
def destination : Operation → Destination
  | .publish channel _ => .channel channel
  | .call node path _ _ => .route node (dropLeadingSlash path)

def method : Operation → Method
  | .publish _ _ => .post
  | .call _ _ method _ => method

def body : Operation → Option Payload
  | .publish _ payload => some payload.wrapped
  | .call _ _ _ body => body.map .json

/-- Whether the name of the channel or the node is accepted. -/
def accepted : Operation → Bool
  | .publish channel _ => (ChannelName.ofString? channel).isOk
  | .call node _ _ _ => (NodeName.ofString? node).isOk

/-- The requests of an operation. -/
def requests (g : Gateway) (sidecar : Sidecar) : Operation → List Request
  | .publish channel payload => (g.publish sidecar channel payload).requests
  | .call node path method body => (g.call sidecar node path method body).requests

/-- The request that an accepted operation begins with, if its destination has a URL. -/
def first? (g : Gateway) (o : Operation) : Option Request :=
  match g.endpoint o.destination.segments with
  | .ok url => g.transport.first? o.method url.text o.body []
  | .error _ => none

variable {g : Gateway} {sidecar : Sidecar} {o : Operation}

@[simp] theorem publishFailed_exchanges (channel : String) (failure : DeliveryFailure)
    (exchanges : List Exchange) :
    (publishFailed channel failure exchanges).exchanges = exchanges := rfl

@[simp] theorem callFailed_exchanges (log url : String) (failure : DeliveryFailure)
    (exchanges : List Exchange) :
    (callFailed log url failure exchanges).exchanges = exchanges := rfl

@[simp] theorem callRefused_exchanges (url : String) (failure : DeliveryFailure) :
    (callRefused url failure).exchanges = [] := rfl

theorem publish_requests {name : ChannelName} {channel : String} {payload : Payload}
    (hname : ChannelName.ofString? channel = .ok name) :
    (g.publish sidecar channel payload).requests =
      match g.endpoint [channelSegment, name.text] with
      | .ok url => (g.transport.send sidecar .post url.text (some payload.wrapped) []).requests
      | .error _ => [] := by
  rw [Gateway.publish, hname]
  dsimp only [Transport.post]
  cases hurl : g.endpoint [channelSegment, name.text] with
  | error e => simp only [Attempt.requests, publishFailed_exchanges, List.map_nil]
  | ok url =>
    dsimp only
    generalize g.transport.send sidecar .post url.text (some payload.wrapped) [] = sent
    cases sent.result with
    | error e => simp only [Attempt.requests, publishFailed_exchanges]
    | ok response =>
      dsimp only
      split
      · simp only [Attempt.requests]
      · simp only [Attempt.requests, publishFailed_exchanges]

theorem call_requests {name : NodeName} {node path : String} {method : Method}
    {body : Option Json} (hname : NodeName.ofString? node = .ok name) :
    (g.call sidecar node path method body).requests =
      match g.endpoint (routeSegments name (dropLeadingSlash path)) with
      | .ok url => (g.transport.send sidecar method url.text (body.map .json) []).requests
      | .error _ => [] := by
  rw [Gateway.call, hname]
  dsimp only
  cases hurl : g.endpoint (routeSegments name (dropLeadingSlash path)) with
  | error e => simp only [Attempt.requests, callRefused_exchanges, List.map_nil]
  | ok url =>
    dsimp only
    generalize g.transport.send sidecar method url.text (body.map .json) [] = sent
    cases sent.result with
    | error e => simp only [Attempt.requests, callFailed_exchanges]
    | ok response => simp only [Attempt.requests]

/-- **An accepted operation is one call** of the transport, to the URL of its segments. -/
theorem requests_eq (h : o.accepted = true) : o.requests g sidecar =
    match g.endpoint o.destination.segments with
    | .ok url => (g.transport.send sidecar o.method url.text o.body []).requests
    | .error _ => [] := by
  cases o with
  | publish channel payload => exact publish_requests (ChannelName.ofString?_of_isOk h)
  | call node path method body => exact call_requests (NodeName.ofString?_of_isOk h)

/-- **The first request of an operation** is the one it begins with, if that arrives. -/
theorem requests_head? (h : o.accepted = true) :
    (o.requests g sidecar).head? = (o.first? g).filter (Transport.arrives sidecar) := by
  rw [requests_eq h, first?]
  cases g.endpoint o.destination.segments with
  | error e => rfl
  | ok url => exact Transport.send_head? g.transport sidecar o.method url.text o.body []

/-- The body of a call can always be written. -/
theorem written_call (node path : String) (method : Method) (body : Option Json) :
    ∃ bytes, (Operation.call node path method body).body.mapM Payload.write = .ok bytes := by
  cases body with
  | none => exact ⟨none, rfl⟩
  | some value => exact ⟨some value.write, rfl⟩

/-- **A call gives back what the transport does.** -/
theorem call_result {node path : String} {method : Method} {body : Option Json} {url : Url}
    {response : Response} (haccepted : (Operation.call node path method body).accepted = true)
    (hurl : g.endpoint (Operation.call node path method body).destination.segments = .ok url) :
    (g.call sidecar node path method body).result = .ok response ↔
      (g.transport.send sidecar method url.text (body.map .json) []).result = .ok response := by
  have hname := NodeName.ofString?_of_isOk haccepted
  have hsegments : routeSegments ⟨node⟩ (dropLeadingSlash path)
      = (Operation.call node path method body).destination.segments := rfl
  rw [Gateway.call, hname]
  dsimp only
  rw [hsegments, hurl]
  dsimp only
  cases hsent : (g.transport.send sidecar method url.text (body.map .json) []).result with
  | error e => exact iff_of_false (by rintro ⟨⟩) (by rintro ⟨⟩)
  | ok r => simp only [Except.ok.injEq]

end Operation
end MeshNode.Gateway
