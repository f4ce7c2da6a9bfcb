/-
# Counters

What the library counts: messages by channel and outcome, and requests by route.  A count is
told by the name of its counter and its labels, and always adds one.

The label of a channel is a registered name or the one word `unregistered`, so that what is
written on the wire never makes a new series.
-/

namespace MeshNode

/-- One step of a counter. -/
structure Count where
  counter : String
  labels : List (String × String)
  deriving DecidableEq, Repr

namespace Count

/-- How the delivery of a message ends. -/
inductive Outcome
  | ok
  | failed
  | malformed
  | unknown
  deriving DecidableEq, Repr

/-- The label of an outcome. -/
def Outcome.label : Outcome → String
  | .ok => "ok"
  | .failed => "failed"
  | .malformed => "malformed"
  | .unknown => "unknown"

/-- The label of channels that are not registered. -/
def unregistered : String := "unregistered"

/-- A message on a channel. -/
def message (channel : String) (outcome : Outcome) : Count :=
  ⟨"dapp_client_channel_messages_total", [("channel", channel), ("outcome", outcome.label)]⟩

/-- A request on a route. -/
def request (route : String) : Count :=
  ⟨"dapp_client_route_requests_total", [("route", route)]⟩

end Count
end MeshNode
