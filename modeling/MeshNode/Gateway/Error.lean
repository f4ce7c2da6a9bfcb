/-
# Gateway errors

Why a message or a request did not get through, and on what way.  The error names the way; the
failure under it names the cause.
-/
import MeshNode.Name
import MeshNode.Transport.Error

namespace MeshNode

/-- Why a delivery failed. -/
inductive DeliveryFailure
  /-- The exchange was not completed. -/
  | transport (cause : TransportError)
  /-- The name of the channel or node cannot be addressed. -/
  | invalidTarget (cause : NameError)
  /-- The sidecar refused. -/
  | status (answer : Status) (body : String)

/-- The text of a failure. -/
def DeliveryFailure.message : DeliveryFailure → String
  | .transport cause => cause.message
  | .invalidTarget cause => cause.message
  | .status answer body => "sidecar responded with HTTP " ++ answer.text ++ ": " ++ body

/-- What did not get through. -/
inductive GatewayError
  | publish (channel : String) (failure : DeliveryFailure)
  | call (url : String) (failure : DeliveryFailure)

namespace GatewayError

/-- The text of an error. -/
def message : GatewayError → String
  | .publish channel _ => "failed to deliver message: channel: " ++ channel
  | .call url _ => "failed to deliver message: route: " ++ url

/-- The failure under an error. -/
def failure : GatewayError → DeliveryFailure
  | .publish _ failure => failure
  | .call _ failure => failure

end GatewayError
end MeshNode
