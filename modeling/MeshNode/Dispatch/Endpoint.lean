/-
# Endpoints

The two kinds of paths a node serves: `/channel/` with one segment behind it, and `/route/`
with anything behind it.  What stands behind is not interpreted here, so an escaped separator
does not separate.

* `Endpoint.ofPath?` recognizes a path;
* `Endpoint.methods` are the methods of an endpoint.
-/
import MeshNode.Http.Method

namespace MeshNode

/-- A path that a node serves, with the escaped name in it. -/
inductive Endpoint
  | channel (segment : String)
  | route (path : String)
  deriving DecidableEq, Repr

/-- The text behind the one it begins with. -/
def dropFront? : List Char → List Char → Option (List Char)
  | [], s => some s
  | _ :: _, [] => none
  | c :: front, d :: s => if c = d then dropFront? front s else none

namespace Endpoint

/-- The endpoint of a channel: one segment that is not empty. -/
def ofChannelPath? (path : String) : Option Endpoint :=
  (dropFront? "/channel/".toList path.toList).bind fun segment =>
    if segment.isEmpty || segment.contains '/' then none
    else some (.channel (String.ofList segment))

/-- The endpoint of a route: a path that is not empty. -/
def ofRoutePath? (path : String) : Option Endpoint :=
  (dropFront? "/route/".toList path.toList).bind fun rest =>
    if rest.isEmpty then none else some (.route (String.ofList rest))

/-- The endpoint that a path names. -/
def ofPath? (path : String) : Option Endpoint := (ofChannelPath? path).or (ofRoutePath? path)

/-- The methods of an endpoint, in the order in which an answer lists them. -/
def methods : Endpoint → List Method
  | .channel _ => [.post]
  | .route _ => [.get, .head, .post, .put, .delete]

end Endpoint
end MeshNode
