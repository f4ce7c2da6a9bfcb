/-
# Exchanges with the sidecar

The other side of the connection is a function: from the requests it received so far, the
current one last, to its reply.  A client that sends a request follows redirections, so one
request may become a chain of exchanges.

* `Reply` is what can come back, `Sidecar` the other side;
* `Request.obstacle?` is what keeps a request from being sent;
* `follow` runs a chain of at most `redirections` steps and gives every exchange of it;
* `receive` is what the client makes of the last reply.

A connection that is refused is no exchange: the request never arrived.  That goes for a request
that asks for an encrypted connection, too, where the other side does not speak that.
-/
import MeshNode.Transport.Redirect

namespace MeshNode

/-- What comes back for a request. -/
inductive Reply
  /-- There is no connection, so the request does not arrive. -/
  | refused
  /-- The connection ends, or what comes back is no response. -/
  | broken
  /-- Nothing comes back. -/
  | silent
  /-- A response whose body ends too early. -/
  | cutOff (status : Status) (headers : Headers)
  /-- A response whose body never ends. -/
  | stalled (status : Status) (headers : Headers)
  /-- A complete response. -/
  | complete (response : Response)
  deriving DecidableEq, Repr, Inhabited

/-- The other side: what it replies, given the requests it received, the current one last. -/
abbrev Sidecar := List Request → Reply

/-- The sidecar as it is after some requests. -/
def Sidecar.after (sidecar : Sidecar) (past : List Request) : Sidecar := fun requests =>
  sidecar (past ++ requests)

/-- A request that arrived, with the reply to it. -/
structure Exchange where
  request : Request
  reply : Reply
  deriving DecidableEq, Repr

/-- What went wrong with a connection. -/
inductive Fault
  /-- The scheme of the URL is not one to send requests by. -/
  | scheme
  /-- The URL cannot stand in the line of a request, or there is no URL that a location stands for. -/
  | uri
  /-- No response came back. -/
  | sending
  /-- One redirection too many. -/
  | redirection
  /-- The body of a response ended too early. -/
  | body
  deriving DecidableEq, Repr

/-- The text of a fault. -/
def Fault.message : Fault → String
  | .scheme | .uri => "builder error"
  | .sending => "error sending request"
  | .redirection => "error following redirect"
  | .body => "error decoding response body"

/-- How a chain of exchanges can fail. -/
inductive ExchangeError
  | timedOut
  | failed (fault : Fault) (url : Url)
  deriving DecidableEq, Repr

/-- How many redirections a client follows. -/
def redirections : Nat := 10

/-- Whether a response to a method has a body. -/
def carriesBody (method : Method) (status : Status) : Bool :=
  method != .head && status != .noContent && status != .notModified

/-- The URI that a reply points to, with its status. -/
def Reply.redirection? (url : Url) : Reply → Option (Status × Reference)
  | .cutOff status headers | .stalled status headers =>
    (MeshNode.redirection? url status headers).map (status, ·)
  | .complete r => (MeshNode.redirection? url r.status r.headers).map (r.status, ·)
  | .refused | .broken | .silent => none

/-- What the client makes of a reply it does not follow.  Without a limit of time it waits until
the connection is gone. -/
def receive (limited : Bool) (origin : Url) (request : Request) :
    Reply → Except ExchangeError Response
  | .refused | .broken => .error (.failed .sending origin)
  | .silent => .error (if limited then .timedOut else .failed .sending origin)
  | .cutOff status headers =>
    if carriesBody request.method status then .error (.failed .body request.url.named)
    else .ok ⟨status, headers, []⟩
  | .stalled status headers =>
    if carriesBody request.method status then
      .error (if limited then .timedOut else .failed .body request.url.named)
    else .ok ⟨status, headers, []⟩
  | .complete r => .ok (if carriesBody request.method r.status then r else { r with body := [] })

/-- Whether requests are sent by the scheme of a URL. -/
def Url.isSpoken (u : Url) : Bool := u.scheme == "http" || u.scheme == "https"

/-- What keeps a request from being sent: two schemes are spoken here, and no other, and the URL must
be one that can stand in the line of a request. -/
def Request.obstacle? (r : Request) : Option Fault :=
  if !r.url.isSpoken then some .scheme
  else if !Http.isUri r.url.text then some .uri
  else none

/-- The URL to ask for next, where a redirection points to `target`.  A URI in one of the schemes
that are spoken may still lack an authority to connect to. -/
def onward (origin : Url) (target : Reference) : Except ExchangeError Url :=
  match target.url? with
  | .error _ => .error (.failed .uri origin)
  | .ok url =>
    if !url.isSpoken then .error (.failed .scheme url)
    else if target.authority.isNone then .error (.failed .sending origin)
    else .ok (target.asked url)

/-- What is told of a redirection to `target` that is one too many. -/
def exhausted (origin : Url) (target : Reference) : ExchangeError :=
  match target.url? with
  | .error _ => .failed .uri origin
  | .ok url => .failed .redirection url

/-- A request and the redirections after it, at most as many as `steps`.  `past` are the
exchanges before it, and `origin` is the URL of the first. -/
def follow (limited : Bool) (sidecar : Sidecar) (origin : Url) (steps : Nat)
    (past : List Exchange) (request : Request) :
    Except ExchangeError Response × List Exchange :=
  match sidecar (past.map Exchange.request ++ [request]) with
  | .refused => (.error (.failed .sending origin), past)
  | reply =>
    let past := past ++ [⟨request, reply⟩]
    match reply.redirection? request.url with
    | none => (receive limited origin request reply, past)
    | some (status, target) =>
      match steps with
      | 0 => (.error (exhausted origin target), past)
      | steps + 1 =>
        match onward origin target with
        | .error e => (.error e, past)
        | .ok url => follow limited sidecar origin steps past (request.redirected status url)

end MeshNode
