/-
# Nodes

A node of the mesh: its configuration, the handlers it has registered so far, and its way out.
Binding a node fixes its handlers; what comes in from then on is dispatched to them.

* `Node.ofConfig` and `Node.ofVariables` make a node without handlers;
* `handleChannel` and `handleRoute` register handlers under names that are checked;
* `publish` and `call` go out through the gateway;
* `bind` and `run` start to listen, which the machine may refuse.
-/
import MeshNode.Dispatch.Basic
import MeshNode.Gateway.Basic
import MeshNode.Settings.Basic

namespace MeshNode

/-- Why a machine refuses to let an address be bound. -/
inductive BindFault
  | permissionDenied
  | addressInUse
  | addressNotAvailable
  deriving DecidableEq, Repr

/-- The text of a fault. -/
def BindFault.message : BindFault → String
  | .permissionDenied => "Permission denied (os error 13)"
  | .addressInUse => "Address already in use (os error 98)"
  | .addressNotAvailable => "Cannot assign requested address (os error 99)"

/-- What a machine says to a node that wants to bind an address; nothing if it may. -/
abbrev Machine := SocketAddress → Option BindFault

/-- What can go wrong with a node. -/
inductive NodeError
  | config (cause : ConfigError)
  | name (cause : NameError)
  | invalidAddress (cause : InvalidAddress)
  | bind (address : SocketAddress) (cause : BindFault)

/-- The text of an error. -/
def NodeError.message : NodeError → String
  | .config cause => "Configuration error: " ++ cause.message
  | .name cause => "Invalid name: " ++ cause.message
  | .invalidAddress cause => cause.message
  | .bind address cause => "Failed to bind " ++ address.text ++ ": " ++ cause.message

/-- A node that is being set up. -/
structure Node (κ ρ : Type) where
  config : SidecarConfig
  registry : Registry κ ρ := {}
  gateway : Gateway

/-- A node that listens; its handlers stay as they are. -/
structure BoundNode (κ ρ : Type) where
  address : SocketAddress
  registry : Registry κ ρ

namespace Node

variable {κ ρ σ : Type}

/-- A node without handlers. -/
def ofConfig (config : SidecarConfig) : Node κ ρ :=
  { config, gateway := ⟨config.writeAddress, { timeout := config.requestTimeout }⟩ }

/-- A node without handlers, configured by variables of the environment. -/
def ofVariables (vars : List (String × String)) : Except NodeError (Node κ ρ) :=
  match (Settings.ofVariables vars).bind Settings.sidecar with
  | .ok config => .ok (ofConfig config)
  | .error e => .error (.config e)

/-! ## 1. Registration -/

/-- A node with new handlers, and what is logged. -/
def registered (n : Node κ ρ) (registration : Registry κ ρ × List LogEvent) :
    Node κ ρ × List LogEvent :=
  ({ n with registry := registration.1 }, registration.2)

/-- Registers a handler for a channel. -/
def handleChannel (n : Node κ ρ) (name : String) (handler : κ) :
    Except NodeError (Node κ ρ × List LogEvent) :=
  match ChannelName.ofString? name with
  | .ok name => .ok (n.registered (n.registry.registerChannel name handler))
  | .error e => .error (.name e)

/-- Registers a handler for a route. -/
def handleRoute (n : Node κ ρ) (path : String) (handler : ρ) :
    Except NodeError (Node κ ρ × List LogEvent) :=
  match RouteName.ofString? path with
  | .ok route => .ok (n.registered (n.registry.registerRoute route handler))
  | .error e => .error (.name e)

/-! ## 2. The way out -/

/-- Publishes a payload on a channel. -/
def publish (n : Node κ ρ) (sidecar : Sidecar) (channel : String) (payload : Payload) :
    Attempt GatewayError Unit :=
  n.gateway.publish sidecar channel payload

/-- Calls a path on another node. -/
def call (n : Node κ ρ) (sidecar : Sidecar) (node path : String) (method : Method)
    (body : Option Json) : Attempt GatewayError Response :=
  n.gateway.call sidecar node path method body

/-! ## 3. Listening -/

/-- Binds the address of a node. -/
def bind (n : Node κ ρ) (machine : Machine) : Except NodeError (BoundNode κ ρ) :=
  match machine n.config.readAddress with
  | none => .ok ⟨n.config.readAddress, n.registry⟩
  | some fault => .error (.bind n.config.readAddress fault)

/-- Binds the address of a node in order to serve; a refusal is logged. -/
def run (n : Node κ ρ) (machine : Machine) : Except NodeError (BoundNode κ ρ) × List LogEvent :=
  match n.bind machine with
  | .ok bound => (.ok bound, [])
  | .error e => (.error e, [⟨.error, "cannot start dispatcher", [("error", e.message)]⟩])

end Node

/-- What a node that listens does with a request that comes in. -/
def BoundNode.dispatch {κ ρ σ : Type} (n : BoundNode κ ρ) (behavior : Behavior κ ρ σ)
    (request : Inbound) (state : σ) : Dispatched κ ρ σ :=
  Dispatch.dispatch behavior n.registry request state

end MeshNode
