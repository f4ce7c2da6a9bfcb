import MeshNode.Proofs.Alias.Operation
import MeshNode.Proofs.Alias.Presentation
import MeshNode.Proofs.Dispatch.Balance
import MeshNode.Proofs.Dispatch.Disclosure
import MeshNode.Proofs.Dispatch.Refusal
import MeshNode.Proofs.Envelope.Agreement
import MeshNode.Proofs.Envelope.Others
import MeshNode.Proofs.Envelope.Relay
import MeshNode.Proofs.Envelope.Truncation
import MeshNode.Proofs.Gateway.Addressing
import MeshNode.Proofs.Gateway.EndToEnd
import MeshNode.Proofs.Gateway.Failure
import MeshNode.Proofs.Gateway.Layout
import MeshNode.Proofs.Gateway.RefusedUrl
import MeshNode.Proofs.Gateway.Relayed
import MeshNode.Proofs.Gateway.RouteDelivery
import MeshNode.Proofs.Gateway.Verbatim
import MeshNode.Proofs.Http.Views
import MeshNode.Proofs.Json.Delimiting
import MeshNode.Proofs.Name.Validity
import MeshNode.Proofs.Settings.Layers
import MeshNode.Proofs.Transport.Layers
import MeshNode.Telemetry.Basic
