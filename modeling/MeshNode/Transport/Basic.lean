/-
# The transport

Sends JSON over HTTP.  A transport has headers of its own, which every request carries unless
the request brings values of the same names, and a limit of time.

* `Transport.compose` is the first request of a call, `Transport.chainFrom` what follows from it, and
  `Transport.send` the call;
* `get`, `post`, `put`, `delete` are calls with a body;
* `Attempt` is what a call leaves behind: its result, its exchanges and its log.
-/
import MeshNode.Log
import MeshNode.Text.Base64
import MeshNode.Transport.Error

namespace MeshNode

/-- What an outbound call leaves behind. -/
structure Attempt (ε α : Type) where
  result : Except ε α
  exchanges : List Exchange := []
  logs : List LogEvent := []

/-- The requests of a call that arrived. -/
def Attempt.requests {ε α : Type} (a : Attempt ε α) : List Request := a.exchanges.map (·.request)

/-! ## 1. Credentials -/

/-- The user name and password of a URL, escapes taken back.  A name that is no text is none. -/
def Url.credentials? (u : Url) : Option (String × String) :=
  if u.hasUserInfo then
    (Url.Percent.decodeText? u.username).bind fun name =>
      let word := (Url.Percent.decodeText? u.password).getD ""
      if name = "" ∧ word = "" then none else some (name, word)
  else none

/-- The header that gives a user name and password. -/
def authorization (name word : String) : String × Bytes :=
  ("authorization", Utf8.encode
    ("Basic " ++ String.ofList (Text.Base64.encode (Utf8.encode (name ++ ":" ++ word)))))

/-! ## 2. Transports -/

/-- The settings of a client: a limit of time in milliseconds, and headers for every request. -/
structure Transport where
  timeout : Option Nat := none
  headers : Headers := []
  deriving DecidableEq, Repr, Inhabited

namespace Transport

/-- The transport with a limit of time. -/
def withTimeout (t : Transport) (milliseconds : Nat) : Transport :=
  { t with timeout := some milliseconds }

/-- The transport with a header for every request. -/
def withHeader (t : Transport) (name : String) (value : Bytes) : Transport :=
  { t with headers := t.headers.set name value }

/-- The first request of a call: the caller's headers take the place of what the URL says, a
body is declared as JSON behind them, and the transport's own headers fill in what is absent. -/
def compose (t : Transport) (method : Method) (url : Url) (body : Option Bytes)
    (headers : Headers) : Request :=
  let (url, ofUrl) := match url.credentials? with
    | some (name, word) => (url.withoutUserInfo, [authorization name word])
    | none => (url, [])
  let own := Headers.replaceBy ofUrl headers
  let own := if body.isSome then own.append contentType (Utf8.encode "application/json") else own
  { method, url, headers := own.withDefaults t.headers, body := body.getD [] }

/-- The chain that a first request begins, which is none where something keeps it from being sent. -/
def chainFrom (t : Transport) (sidecar : Sidecar) (first : Request) :
    Except ExchangeError Response × List Exchange :=
  match first.obstacle? with
  | some fault => (.error (.failed fault first.url), [])
  | none => follow t.timeout.isSome sidecar first.url redirections [] first

/-- Sends a request and gives the response that the last exchange of its chain brought. -/
def send (t : Transport) (sidecar : Sidecar) (method : Method) (url : String)
    (body : Option Payload) (headers : Headers) : Attempt TransportError Response :=
  match Url.parse? url with
  | .error e => { result := .error (.invalidUrl url e.message) }
  | .ok target =>
    match body.mapM Payload.write with
    | .error e => { result := .error (.encode url e) }
    | .ok bytes =>
      let (result, exchanges) := t.chainFrom sidecar (t.compose method target bytes headers)
      { result := result.mapError (.ofExchange url), exchanges }

/-- Sends a body with GET. -/
def get (t : Transport) (sidecar : Sidecar) (url : String) (body : Payload) (headers : Headers) :
    Attempt TransportError Response :=
  t.send sidecar .get url (some body) headers

/-- Sends a body with POST. -/
def post (t : Transport) (sidecar : Sidecar) (url : String) (body : Payload) (headers : Headers) :
    Attempt TransportError Response :=
  t.send sidecar .post url (some body) headers

/-- Sends a body with PUT. -/
def put (t : Transport) (sidecar : Sidecar) (url : String) (body : Payload) (headers : Headers) :
    Attempt TransportError Response :=
  t.send sidecar .put url (some body) headers

/-- Sends a body with DELETE. -/
def delete (t : Transport) (sidecar : Sidecar) (url : String) (body : Payload)
    (headers : Headers) : Attempt TransportError Response :=
  t.send sidecar .delete url (some body) headers

end Transport
end MeshNode
