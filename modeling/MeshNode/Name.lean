/-
# Names

Channels, nodes and routes are addressed by name.  The name of a channel or of a node is one
segment of a path; the path of a route may have several, and is kept without its leading
separator.

* `ChannelName.ofString?`, `NodeName.ofString?`, `RouteName.ofString?` are the checks;
* `ChannelName.mk` and its like check nothing; names that come as JSON texts are made by them.
-/
import MeshNode.Text.Blank

namespace MeshNode

/-- Why a name is refused. -/
inductive NameError
  | empty
  | notOneSegment (name : String)
  deriving DecidableEq, Repr

/-- The text of a refusal. -/
def NameError.message : NameError → String
  | .empty => "Name cannot be empty"
  | .notOneSegment name => "Invalid name '" ++ name ++ "': must not contain '/'"

/-- The check for a name of one segment: not blank, and without a separator. -/
def checkSegment (s : String) : Except NameError String :=
  if Text.isBlank s then .error .empty
  else if '/' ∈ s.toList then .error (.notOneSegment s)
  else .ok s

/-- A path without its leading separator; at most one is taken off. -/
def dropLeadingSlash (s : String) : String :=
  match s.toList with
  | '/' :: rest => String.ofList rest
  | _ => s

/-- The name of a channel. -/
structure ChannelName where
  text : String
  deriving DecidableEq, Repr

/-- The name of a node. -/
structure NodeName where
  text : String
  deriving DecidableEq, Repr

/-- The path of a route, without its leading separator. -/
structure RouteName where
  text : String
  deriving DecidableEq, Repr

/-- A channel is named by one segment that is not blank. -/
def ChannelName.ofString? (s : String) : Except NameError ChannelName :=
  (checkSegment s).map ChannelName.mk

/-- A node is named by one segment that is not blank. -/
def NodeName.ofString? (s : String) : Except NameError NodeName :=
  (checkSegment s).map NodeName.mk

/-- A route is named by a path that is not blank once its leading separator is off. -/
def RouteName.ofString? (s : String) : Except NameError RouteName :=
  let path := dropLeadingSlash s
  if Text.isBlank path then .error .empty else .ok ⟨path⟩

/-- The key under which a route is registered. -/
def RouteName.key (r : RouteName) : String := "route/" ++ r.text

end MeshNode
