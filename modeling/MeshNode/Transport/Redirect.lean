/-
# Redirection

A response may send its request on to another URL.  What is asked of that URL follows from
the request and the status: a POST that was moved becomes a GET, and so does whatever is told
to see another place; a temporary or permanent redirection repeats the request as it is.

A location is taken by the letter, as a reference, and one that is none is not followed: the response
stands as it is.  So does one to a request whose own URL is no URI by the letter, as with a bar in
its path.

* `redirection?` is the URI that a response points to;
* `Request.redirected` is the request to a URL.
-/
import MeshNode.Http.Message
import MeshNode.Url.Reference

namespace MeshNode

/-- Whether a status sends a request on. -/
def Status.isRedirection (s : Status) : Bool := [301, 302, 303, 307, 308].contains s.code

/-- The URI that a response to a request for `url` points to. -/
def redirection? (url : Url) (status : Status) (headers : Headers) : Option Reference :=
  if status.isRedirection then
    (headers.text? "location").bind (Reference.resolve? url.withoutFragment.text)
  else none

/-- The name that a client has for a URL it asked for: what the request names, read again. -/
def Url.named (u : Url) : Url :=
  match Url.parse? u.withoutFragment.text with
  | .ok read => read
  | .error _ => u.withoutFragment

/-- The headers that describe a body. -/
def bodyHeaders : List String :=
  ["content-type", "content-length", "content-encoding", "transfer-encoding"]

/-- The headers that are meant for one host alone. -/
def confidentialHeaders : List String :=
  ["authorization", "cookie", "cookie2", "proxy-authorization", "www-authenticate"]

namespace Request

/-- A request without its body. -/
def bodiless (r : Request) : Request := { r with headers := r.headers.removeAll bodyHeaders, body := [] }

/-- What a status makes of a request. -/
def restated (r : Request) (status : Status) : Request :=
  if status.code = 303 then
    { r.bodiless with method := if r.method = .head then .head else .get }
  else if (status.code = 301 ∨ status.code = 302) ∧ r.method = .post then
    { r.bodiless with method := .get }
  else r

/-- Whether two URLs name the same host and port. -/
def sameHost (a b : Url) : Bool := a.host == b.host && a.effectivePort? == b.effectivePort?

/-- The request to the URL that a response pointed to.  It keeps what is confidential from another
host, and says where it comes from, unless that was an encrypted connection and this is none. -/
def redirected (r : Request) (status : Status) (target : Url) : Request :=
  let r' := r.restated status
  let headers := if sameHost r.url target then r'.headers else r'.headers.removeAll confidentialHeaders
  { r' with
    url := target
    headers :=
      if r.url.scheme = "https" ∧ target.scheme = "http" then headers
      else headers.set "referer" (Utf8.encode r.url.named.withoutUserInfo.text) }

end Request
end MeshNode
