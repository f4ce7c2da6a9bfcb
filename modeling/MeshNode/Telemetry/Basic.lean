/-
# Telemetry

How a node reports on itself: its name and version, how much it logs, and whether spans are
sent to a collector and which share of them.

* `Telemetry.withSamplingRatio` keeps a share between zero and one;
* `Telemetry.start` installs the subscriber of a process, which has room for one.
-/
import MeshNode.Decimal.Layout
import MeshNode.Http.Uri

namespace MeshNode

/-- How a node reports on itself. -/
structure Telemetry where
  serviceName : String
  serviceVersion : String
  endpoint : Option String := none
  logLevel : String := "info"
  samplingRatio : Float := 1.0

/-- Why reporting cannot start. -/
inductive TelemetryError
  | exporter
  | subscriber
  deriving DecidableEq, Repr

/-- The text of an error. -/
def TelemetryError.message : TelemetryError → String
  | .exporter => "Failed to build OTLP span exporter"
  | .subscriber => "Failed to init subscriber"

namespace Telemetry

/-- With spans sent to a collector. -/
def withTracing (t : Telemetry) (endpoint : String) : Telemetry := { t with endpoint := some endpoint }

/-- With another level of the log. -/
def withLogLevel (t : Telemetry) (level : String) : Telemetry := { t with logLevel := level }

/-- With a share of the spans; one outside zero to one becomes the nearer end, and what is no
number stays as it is. -/
def withSamplingRatio (t : Telemetry) (ratio : Float) : Telemetry :=
  { t with samplingRatio := if ratio < 0.0 then 0.0 else if 1.0 < ratio then 1.0 else ratio }

/-- Whether spans are sent. -/
def tracingEnabled (t : Telemetry) : Bool := t.endpoint.isSome

/-- The share of spans in the form for diagnosis. -/
def ratioText (t : Telemetry) : String := Decimal.Layout.diagnostic.write t.samplingRatio

/-- Whether an endpoint can be sent to; the empty one stands for the default. -/
def isEndpoint (endpoint : String) : Bool := endpoint == "" || Http.isUri endpoint

/-- Starts reporting, in a process that may have a subscriber already.  The exporter comes
before the subscriber. -/
def start (t : Telemetry) (installed : Bool) : Except TelemetryError Unit :=
  if t.endpoint.any (!isEndpoint ·) then .error .exporter
  else if installed then .error .subscriber
  else .ok ()

end Telemetry
end MeshNode
