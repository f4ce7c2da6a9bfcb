/-
# URLs

A URL in its normal form.  Its texts are escaped already, so writing it is a matter of
punctuation alone.

* `Host` is a name or an address, `Path` a list of segments or a plain text;
* `Url` is the record, `Url.text` its writing;
* `Url.withoutUserInfo` and `Url.withoutFragment` are the two reductions that precede a request.

A path of segments is written with a slash in front of each, so the list `[""]` is the path `/`
and the empty list is no path at all.
-/
import MeshNode.Address.IP

namespace MeshNode

/-- Where a URL points to. -/
inductive Host
  | name (text : String)
  | ipv4 (address : IPv4)
  | ipv6 (address : IPv6)
  deriving DecidableEq, Repr

/-- The path of a URL.  A plain path belongs to a URL that nothing can be relative to. -/
inductive Path
  | segments (list : List String)
  | plain (text : String)
  deriving DecidableEq, Repr

/-- A URL.  An empty user name or password is an absent one; a host may be absent altogether,
which is different from an empty one. -/
structure Url where
  scheme : String
  username : String := ""
  password : String := ""
  host : Option Host := none
  port : Option Nat := none
  path : Path
  query : Option String := none
  fragment : Option String := none
  deriving DecidableEq, Repr

/-- The text of a host. -/
def Host.text : Host → String
  | .name text => text
  | .ipv4 address => String.ofList address.text
  | .ipv6 address => "[" ++ String.ofList address.compressed ++ "]"

/-- The text of a path. -/
def Path.text : Path → String
  | .segments list => String.ofList (list.flatMap fun s => '/' :: s.toList)
  | .plain text => text

/-- The segments of a path; a plain path has none. -/
def Path.list : Path → List String
  | .segments list => list
  | .plain _ => []

namespace Url

/-- The schemes of the web, whose URLs always have a host and a path. -/
def isWeb (scheme : String) : Bool :=
  scheme == "http" || scheme == "https" || scheme == "ws" || scheme == "wss" || scheme == "ftp"

/-- The schemes for which a backslash is a slash. -/
def isSpecial (scheme : String) : Bool := isWeb scheme || scheme == "file"

/-- The port that a scheme implies. -/
def defaultPort? (scheme : String) : Option Nat :=
  if scheme = "http" ∨ scheme = "ws" then some 80
  else if scheme = "https" ∨ scheme = "wss" then some 443
  else if scheme = "ftp" then some 21
  else none

/-- The port that a URL means. -/
def effectivePort? (u : Url) : Option Nat := u.port.or (defaultPort? u.scheme)

/-- Whether a URL holds a user name or a password. -/
def hasUserInfo (u : Url) : Bool := u.username != "" || u.password != ""

/-- The user name and password in front of a host. -/
def userInfoText (u : Url) : String :=
  if u.hasUserInfo then
    u.username ++ (if u.password = "" then "" else ":" ++ u.password) ++ "@"
  else ""

/-- What stands between the scheme and the path.  A path without a host must not look like one,
so a dot is put in front of it where it would. -/
def authorityText (u : Url) : String :=
  match u.host, u.path with
  | some host, _ =>
    "//" ++ u.userInfoText ++ host.text ++ (match u.port with
      | some port => ":" ++ toString port
      | none => "")
  | none, .segments ("" :: _ :: _) => "/."
  | none, _ => ""

/-- A part behind its mark, if there is one. -/
def markedText (mark : String) : Option String → String
  | some text => mark ++ text
  | none => ""

/-- The text of a URL. -/
def text (u : Url) : String :=
  u.scheme ++ ":" ++ u.authorityText ++ u.path.text ++ markedText "?" u.query ++
    markedText "#" u.fragment

/-- A URL without user name and password. -/
def withoutUserInfo (u : Url) : Url := { u with username := "", password := "" }

/-- A URL without its fragment. -/
def withoutFragment (u : Url) : Url := { u with fragment := none }

end Url
end MeshNode
