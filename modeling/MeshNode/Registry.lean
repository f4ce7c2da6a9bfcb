/-
# The registry

The handlers of a node under the names they serve.  Channels and routes do not share names.  A
later registration under a name takes the place of the earlier one, which is logged, and the
list of endpoints keeps the order of the first registrations.

* `registerChannel` and `registerRoute` give the new registry and what is logged;
* `channel?` and `route?` look a handler up; four lemmas say what a registration does to them.
-/
import MeshNode.Dictionary
import MeshNode.Log
import MeshNode.Name
import MeshNode.Text.Quoted

namespace MeshNode

/-- The handlers of a node. -/
structure Registry (κ ρ : Type) where
  channels : List (String × κ) := []
  routes : List (String × ρ) := []
  endpoints : List String := []
  deriving Repr, Inhabited

/-- The path of a channel. -/
def ChannelName.endpoint (name : ChannelName) : String := "/channel/" ++ name.text

/-- The path of a route. -/
def RouteName.endpoint (route : RouteName) : String := "/" ++ route.key

namespace Registry

variable {κ ρ : Type}

/-- What is logged when a registration takes the place of another. -/
def replaced (kind endpoint : String) : LogEvent :=
  ⟨.warn, kind ++ " handler replaced by a later registration", [("endpoint", endpoint)]⟩

/-- The handler of a channel. -/
def channel? (r : Registry κ ρ) (name : String) : Option κ := Dictionary.get? name r.channels

/-- The handler of a route, by its path without a leading separator. -/
def route? (r : Registry κ ρ) (path : String) : Option ρ :=
  Dictionary.get? (RouteName.key ⟨path⟩) r.routes

/-- The endpoints with one more, unless it replaces one. -/
def addEndpoint (isNew : Bool) (endpoint : String) (endpoints : List String) : List String :=
  if isNew then endpoints ++ [endpoint] else endpoints

/-- Registers a handler for a channel. -/
def registerChannel (r : Registry κ ρ) (name : ChannelName) (handler : κ) :
    Registry κ ρ × List LogEvent :=
  let isNew := (r.channel? name.text).isNone
  ({ r with
      channels := Dictionary.insert name.text handler r.channels
      endpoints := addEndpoint isNew name.endpoint r.endpoints },
    if isNew then [] else [replaced "channel" name.endpoint])

/-- Registers a handler for a route. -/
def registerRoute (r : Registry κ ρ) (route : RouteName) (handler : ρ) :
    Registry κ ρ × List LogEvent :=
  let isNew := (r.route? route.text).isNone
  ({ r with
      routes := Dictionary.insert route.key handler r.routes
      endpoints := addEndpoint isNew route.endpoint r.endpoints },
    if isNew then [] else [replaced "route" route.endpoint])

/-- A registration for a channel is what its name finds from then on. -/
theorem channel?_registerChannel (r : Registry κ ρ) (name : ChannelName) (handler : κ)
    (n : String) :
    (r.registerChannel name handler).1.channel? n =
      if n = name.text then some handler else r.channel? n :=
  Dictionary.get?_insert name.text n handler r.channels

/-- A registration for a channel is no route. -/
@[simp] theorem route?_registerChannel (r : Registry κ ρ) (name : ChannelName) (handler : κ)
    (path : String) : (r.registerChannel name handler).1.route? path = r.route? path := rfl

/-- A registration for a route is no channel. -/
@[simp] theorem channel?_registerRoute (r : Registry κ ρ) (route : RouteName) (handler : ρ)
    (n : String) : (r.registerRoute route handler).1.channel? n = r.channel? n := rfl

/-- A registration for a route is what its path finds from then on. -/
theorem route?_registerRoute (r : Registry κ ρ) (route : RouteName) (handler : ρ)
    (path : String) :
    (r.registerRoute route handler).1.route? path =
      if path = route.text then some handler else r.route? path := by
  have key : RouteName.key ⟨path⟩ = route.key ↔ path = route.text := by simp [RouteName.key]
  simp only [route?, registerRoute, Dictionary.get?_insert, key]

/-- How many endpoints there are. -/
def size (r : Registry κ ρ) : Nat := r.endpoints.length

/-- Whether nothing is registered. -/
def isEmpty (r : Registry κ ρ) : Bool := r.endpoints.isEmpty

/-- The form of a registry for diagnosis. -/
def detail (r : Registry κ ρ) : String :=
  "HandlerRegistry \x7b endpoints: " ++ Text.quotedList r.endpoints ++ ", .. \x7d"

end Registry
end MeshNode
