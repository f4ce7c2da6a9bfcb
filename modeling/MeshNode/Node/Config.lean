/-
# The configuration of a node

Where a node listens, where its sidecar listens, and how long a request may take.

* `SidecarConfig.ofPorts` is the configuration on the local machine;
* `SidecarConfig.readAddress` is the address that a node binds to.
-/
import MeshNode.Url.Parse

namespace MeshNode

/-- A write address that is no URL. -/
structure InvalidAddress where
  address : String
  cause : Url.Error
  deriving DecidableEq, Repr

/-- The text of the error. -/
def InvalidAddress.message (e : InvalidAddress) : String :=
  "Invalid write address '" ++ e.address ++ "': " ++ e.cause.message

/-- An IP address with a port. -/
structure SocketAddress where
  host : IPAddress
  port : UInt16
  deriving DecidableEq, Repr

/-- The text of a socket address. -/
def SocketAddress.text (a : SocketAddress) : String := a.host.textWithPort a.port.toNat

/-- The configuration of a node.  The limit of time for a request is in milliseconds. -/
structure SidecarConfig where
  readHost : IPAddress := .localhost
  readPort : UInt16
  writeAddress : Url
  requestTimeout : Option Nat := none
  deriving DecidableEq, Repr

namespace SidecarConfig

/-- The address of a sidecar on the local machine. -/
def localAddress (writePort : UInt16) : String := "http://localhost:" ++ toString writePort.toNat

/-- The configuration of a node and a sidecar on the local machine. -/
def ofPorts (readPort writePort : UInt16) : Except InvalidAddress SidecarConfig :=
  match Url.parse? (localAddress writePort) with
  | .ok url => .ok { readPort, writeAddress := url }
  | .error e => .error ⟨localAddress writePort, e⟩

/-- The address that a node binds to. -/
def readAddress (c : SidecarConfig) : SocketAddress := ⟨c.readHost, c.readPort⟩

end SidecarConfig
end MeshNode
