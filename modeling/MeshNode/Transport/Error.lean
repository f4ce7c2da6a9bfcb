/-
# Transport errors

Why an exchange could not be completed.  A response with any status is no error here.
-/
import MeshNode.Transport.Exchange
import MeshNode.Transport.Payload

namespace MeshNode

/-- Why an exchange could not be completed; `url` is the URL as the caller gave it. -/
inductive TransportError
  | invalidUrl (url : String) (reason : String)
  | timeout (url : String)
  | request (url : String) (fault : Fault) (target : Url)
  | encode (url : String) (cause : EncodeError)

namespace TransportError

/-- The text of an error. -/
def message : TransportError → String
  | .invalidUrl url reason => "Invalid URL '" ++ url ++ "': " ++ reason
  | .timeout url => "Request to " ++ url ++ " timed out"
  | .request url fault target =>
    "Request to " ++ url ++ " failed: " ++ fault.message ++ " for url (" ++ target.text ++ ")"
  | .encode url cause => "Failed to encode request body for " ++ url ++ ": " ++ cause.message

/-- Whether the time ran out. -/
def isTimeout : TransportError → Bool
  | .timeout _ => true
  | _ => false

/-- The error of a chain of exchanges that began at `url`. -/
def ofExchange (url : String) : ExchangeError → TransportError
  | .timedOut => .timeout url
  | .failed fault target => .request url fault target

end TransportError
end MeshNode
