/-
# Settings

The configuration of a node as its environment gives it.  Only variables with the prefix of
the mesh count, in upper or lower case, and of equal names the last.

* `Settings.ofVariables` reads the settings;
* `Settings.sidecar` checks them and makes the configuration of a node;
* `ConfigError` is what can be wrong.
-/
import MeshNode.Node.Config
import MeshNode.Settings.Value
import MeshNode.Text.Quoted

namespace MeshNode

/-- What can be wrong with the settings. -/
inductive ConfigError
  | missing (key : String)
  | notNumber (key : String) (cause : NumberError)
  | notPort (key : String) (n : Nat)
  | zeroWritePort
  | invalidHost (host : String)
  | invalidAddress (cause : InvalidAddress)
  deriving DecidableEq, Repr

/-- The text of a value that is no number. -/
def NumberError.message : NumberError → String
  | .negative n =>
    "invalid type: 64-bit integer `" ++ toString n ++ "`, expected an unsigned 64 bit or less integer"
  | .notNumber text => "invalid type: string " ++ Text.quoted text ++ ", expected an integer"

/-- The text of an error. -/
def ConfigError.message : ConfigError → String
  | .missing key => "missing configuration field " ++ Text.quoted key
  | .notNumber key cause => cause.message ++ " for key `" ++ key ++ "` in the environment"
  | .notPort key n =>
    "invalid type: 64-bit unsigned integer `" ++ toString n ++
      "`, expected an unsigned 16 bit integer for key `" ++ key ++ "`"
  | .zeroWritePort => "INSPR_LBSIDECAR_WRITE_PORT must not be 0"
  | .invalidHost host => "Invalid read host '" ++ host ++ "': invalid IP address syntax"
  | .invalidAddress cause => cause.message

/-- Where a node listens unless it is told. -/
def defaultReadHost : String := "127.0.0.1"

/-- The settings of a node.  The limit of time for a request is in seconds. -/
structure Settings where
  readPort : UInt16
  writePort : UInt16
  readHost : String := defaultReadHost
  requestTimeout : Option Nat := none
  deriving DecidableEq, Repr

namespace Settings

/-! ## 1. Variables -/

/-- The keys of the settings. -/
def readPortKey : String := "scclient_read_port"
def writePortKey : String := "lbsidecar_write_port"
def readHostKey : String := "scclient_read_host"
def requestTimeoutKey : String := "scclient_request_timeout_secs"

/-- The name of the variable of a key, in lower case. -/
def variableName (key : String) : String := "inspr_" ++ key

/-- The text of the variable of a key; the last one counts. -/
def lookup? (vars : List (String × String)) (key : String) : Option String :=
  (vars.reverse.find? fun v => Variable.lower v.1 == variableName key).map Prod.snd

/-- The number of a key, if there is one. -/
def number? (vars : List (String × String)) (key : String) : Except ConfigError (Option Nat) :=
  match lookup? vars key with
  | none => .ok none
  | some text =>
    match (Variable.ofText text).toNat? with
    | .ok n => .ok (some n)
    | .error e => .error (.notNumber key e)

/-- The port of a key, if there is one. -/
def port? (vars : List (String × String)) (key : String) : Except ConfigError (Option UInt16) :=
  match number? vars key with
  | .error e => .error e
  | .ok none => .ok none
  | .ok (some n) => if n < 65536 then .ok (some (.ofNat n)) else .error (.notPort key n)

/-- A setting that must be given. -/
def required {α : Type} (key : String) : Option α → Except ConfigError α
  | some v => .ok v
  | none => .error (.missing key)

/-- The settings that variables spell.  A wrong value is found before a missing one. -/
def ofVariables (vars : List (String × String)) : Except ConfigError Settings := do
  let readPort ← port? vars readPortKey
  let writePort ← port? vars writePortKey
  let requestTimeout ← number? vars requestTimeoutKey
  let readPort ← required readPortKey readPort
  let writePort ← required writePortKey writePort
  let readHost := match lookup? vars readHostKey with
    | some text => (Variable.ofText text).toText
    | none => defaultReadHost
  .ok { readPort, writePort, readHost, requestTimeout }

/-! ## 2. The configuration of a node -/

/-- The configuration of a node with these settings. -/
def sidecar (s : Settings) : Except ConfigError SidecarConfig :=
  if s.writePort = 0 then .error .zeroWritePort
  else
    match IPAddress.parse? s.readHost.toList with
    | none => .error (.invalidHost s.readHost)
    | some host =>
      match SidecarConfig.ofPorts s.readPort s.writePort with
      | .error e => .error (.invalidAddress e)
      | .ok config =>
        .ok { config with readHost := host, requestTimeout := s.requestTimeout.map (1000 * ·) }

end Settings
end MeshNode
