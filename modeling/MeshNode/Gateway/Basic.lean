/-
# The gateway

The way out of a node.  Publishing on a channel and calling a route of another node become
requests to the write address of the sidecar.

* `Gateway.endpoint` is the URL of a list of segments behind the write address;
* `Gateway.publish` posts a payload in its envelope, and any answer but success is a failure;
* `Gateway.call` gives back whatever response there is.

Every failure is logged once, where it is found.
-/
import MeshNode.Gateway.Error
import MeshNode.Transport.Basic
import MeshNode.Url.Append

namespace MeshNode

/-- The way out of a node: where the sidecar listens, and how to talk to it. -/
structure Gateway where
  writeAddress : Url
  transport : Transport := {}
  deriving DecidableEq, Repr

namespace Gateway

/-- The first segment of the URL of a channel. -/
def channelSegment : String := "channel"

/-- The first segment of the URL of a route. -/
def routeSegment : String := "route"

/-- The URL with segments behind the write address. -/
def endpoint (g : Gateway) (segments : List String) : Except TransportError Url :=
  match g.writeAddress.append? segments with
  | some url => .ok url
  | none => .error (.invalidUrl g.writeAddress.text "write address cannot be a base")

/-! ## 1. Publishing -/

/-- A publication that failed. -/
def publishFailed (channel : String) (failure : DeliveryFailure) (exchanges : List Exchange) :
    Attempt GatewayError Unit :=
  { result := .error (.publish channel failure)
    exchanges
    logs := [⟨.error, "failed to publish message",
      [("channel", channel), ("error", failure.message)]⟩] }

/-- Publishes a payload on a channel.  It is delivered when the sidecar says so. -/
def publish (g : Gateway) (sidecar : Sidecar) (channel : String) (payload : Payload) :
    Attempt GatewayError Unit :=
  match ChannelName.ofString? channel with
  | .error e => publishFailed channel (.invalidTarget e) []
  | .ok name =>
    match g.endpoint [channelSegment, name.text] with
    | .error e => publishFailed channel (.transport e) []
    | .ok url =>
      let sent := g.transport.post sidecar url.text payload.wrapped []
      match sent.result with
      | .error e => publishFailed channel (.transport e) sent.exchanges
      | .ok response =>
        if response.isSuccess then { result := .ok (), exchanges := sent.exchanges }
        else publishFailed channel (.status response.status response.text) sent.exchanges

/-! ## 2. Calling -/

/-- A call that failed, with what is logged of it. -/
def callFailed (log url : String) (failure : DeliveryFailure) (exchanges : List Exchange) :
    Attempt GatewayError Response :=
  { result := .error (.call url failure)
    exchanges
    logs := [⟨.error, log, [("url", url), ("error", failure.message)]⟩] }

/-- A call that is not sent at all. -/
def callRefused (url : String) (failure : DeliveryFailure) : Attempt GatewayError Response :=
  callFailed "refusing to send request" url failure []

/-- The segments of the URL of a route. -/
def routeSegments (node : NodeName) (path : String) : List String :=
  routeSegment :: node.text :: (Text.splitOn '/' path.toList).map String.ofList

/-- Calls a path on another node, with a body or without. -/
def call (g : Gateway) (sidecar : Sidecar) (node path : String) (method : Method)
    (body : Option Json) : Attempt GatewayError Response :=
  let path := dropLeadingSlash path
  match NodeName.ofString? node with
  | .error e =>
    callRefused (g.writeAddress.text ++ routeSegment ++ "/" ++ node ++ "/" ++ path)
      (.invalidTarget e)
  | .ok name =>
    match g.endpoint (routeSegments name path) with
    | .error e => callRefused g.writeAddress.text (.transport e)
    | .ok url =>
      let sent := g.transport.send sidecar method url.text (body.map .json) []
      match sent.result with
      | .error e => callFailed "failed to send request" url.text (.transport e) sent.exchanges
      | .ok response => { result := .ok response, exchanges := sent.exchanges }

end Gateway
end MeshNode
