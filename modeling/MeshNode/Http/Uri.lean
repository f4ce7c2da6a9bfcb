/-
# URIs

What can stand in the line of a request: an authority alone, a path alone, or a scheme with an
authority and what follows it.  A text is taken as it is.  Nothing is normalized, and only what
cannot stand in a request line is refused, a text beyond some length among it.

* `isUri` is the check; the empty text is no URI.
-/
import MeshNode.Text.Utf8

namespace MeshNode.Http

/-- The characters of URIs, the percent sign apart. -/
def isUriChar (c : Char) : Bool := c.isAlphanum || "!#$&'()*+,-./:;=?@[]_~".toList.contains c

/-- Whether a character may stand in a scheme. -/
def isSchemeChar (c : Char) : Bool := c.isAlphanum || "+-.~".toList.contains c

/-- The longest name of a scheme. -/
def schemeLimit : Nat := 64

/-- The text behind a scheme and its mark, if it begins with one; nothing for a scheme that is
too long. -/
def dropScheme (cs : List Char) : Option (Bool × List Char) :=
  let scheme := cs.takeWhile isSchemeChar
  match cs.drop scheme.length with
  | ':' :: '/' :: '/' :: rest =>
    if cs.length ≤ 3 then some (false, cs)
    else if schemeLimit < scheme.length then none
    else some (true, rest)
  | _ => some (false, cs)

/-- What is known of an authority up to some character of it. -/
structure Scan where
  colons : Nat := 0
  opened : Bool := false
  closed : Bool := false
  percent : Bool := false
  /-- Whether the last character was the sign behind a user name. -/
  afterUser : Bool := false
  deriving DecidableEq, Repr

/-- The most colons in a row of address groups and a port. -/
def colonLimit : Nat := 8

/-- One character of an authority. -/
def Scan.step (s : Scan) (c : Char) : Option Scan :=
  let s := { s with afterUser := false }
  if c = ':' then if colonLimit ≤ s.colons then none else some { s with colons := s.colons + 1 }
  else if c = '[' then if s.percent || s.opened then none else some { s with opened := true }
  else if c = ']' then
    if !s.opened || s.closed then none
    else some { s with closed := true, colons := 0, percent := false }
  else if c = '@' then some { s with afterUser := true, colons := 0, percent := false }
  else if c = '%' then some { s with percent := true }
  else if isUriChar c then some s
  else none

/-- Whether a character ends an authority. -/
def endsAuthority (c : Char) : Bool := c == '/' || c == '?' || c == '#'

/-- Whether a text is an authority; the empty one is. -/
def isAuthority (cs : List Char) : Bool :=
  match cs.foldlM Scan.step {} with
  | none => false
  | some s => s.opened == s.closed && s.colons ≤ 1 && !s.afterUser && !s.percent

/-- Whether a character may stand in a path. -/
def isPathChar (c : Char) : Bool :=
  let n := c.toNat
  n == 0x21 || n == 0x22 || (0x24 ≤ n && n ≤ 0x3B) || n == 0x3D || (0x40 ≤ n && n ≤ 0x5F) ||
    (0x61 ≤ n && n ≤ 0x7E) || 0x7F ≤ n

/-- Whether a character may stand in a query. -/
def isQueryChar (c : Char) : Bool :=
  let n := c.toNat
  n == 0x21 || (0x24 ≤ n && n ≤ 0x3B) || n == 0x3D || (0x3F ≤ n && n ≤ 0x7E) || 0x7F ≤ n

/-- Whether a text is a path with an optional query; a fragment is not looked at. -/
def isPathAndQuery (cs : List Char) : Bool :=
  let cs := cs.takeWhile (· != '#')
  (cs.takeWhile (· != '?')).all isPathChar && ((cs.dropWhile (· != '?')).drop 1).all isQueryChar

/-- The longest URI, in bytes. -/
def uriLimit : Nat := 65534

/-- Whether a text is a URI. -/
def isUri (s : String) : Bool :=
  let cs := s.toList
  if uriLimit < (Utf8.encode s).length then false
  else
    match cs with
    | [] => false
    | ['*'] => true
    | '/' :: _ => isPathAndQuery cs
    | _ =>
      match dropScheme cs with
      | none => false
      | some (hasScheme, rest) =>
        let authority := rest.takeWhile (!endsAuthority ·)
        let behind := rest.dropWhile (!endsAuthority ·)
        isAuthority authority &&
          (if hasScheme then !authority.isEmpty && isPathAndQuery behind else behind.isEmpty)

end MeshNode.Http
