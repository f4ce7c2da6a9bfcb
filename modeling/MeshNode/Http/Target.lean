/-
# Request targets

What a request names behind its method: a path with an optional query, or a whole URL of
which only these two matter to the receiver.

* `Target.ofString` divides a text, without interpreting any escape in it;
* `Target.text` is the text again, without a fragment, which no request carries.
-/
import MeshNode.Url.Basic

namespace MeshNode

/-- The target of a request.  `origin` is the scheme and authority of a whole URL, and empty
otherwise. -/
structure Target where
  origin : String := ""
  path : String
  query : Option String := none
  deriving DecidableEq, Repr, Inhabited

namespace Target

/-- The origin at the start of a text, and what follows it. -/
def takeOrigin : List Char → List Char × List Char
  | [] => ([], [])
  | c :: rest =>
    if c = '/' ∨ c = '?' ∨ c = '#' then ([], c :: rest)
    else if c = ':' ∧ rest.take 2 = ['/', '/'] then
      let authority := (rest.drop 2).takeWhile fun c => c != '/' && c != '?' && c != '#'
      (c :: '/' :: '/' :: authority, (rest.drop 2).drop authority.length)
    else
      let (origin, rest) := takeOrigin rest
      (c :: origin, rest)

/-- The target of a path and query. -/
def ofPath (origin : String) (cs : List Char) : Target :=
  let cs := cs.takeWhile (· != '#')
  { origin
    path := String.ofList (cs.takeWhile (· != '?'))
    query := match cs.dropWhile (· != '?') with
      | [] => none
      | _ :: rest => some (String.ofList rest) }

/-- The target that a text spells. -/
def ofString (s : String) : Target :=
  match s.toList with
  | '/' :: rest => ofPath "" ('/' :: rest)
  | cs =>
    let (origin, rest) := takeOrigin cs
    let target := ofPath (String.ofList origin) rest
    if target.path = "" then { target with path := "/" } else target

/-- The text of a target. -/
def text (t : Target) : String := t.origin ++ t.path ++ Url.markedText "?" t.query

end Target

/-- The path and query of a URL, as a request to it names them. -/
def Url.target (u : Url) : Target := { path := u.path.text, query := u.query }

end MeshNode
