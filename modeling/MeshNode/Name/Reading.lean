/-
# Names in JSON texts

A name also comes as the text of another format.  All kinds of names are read there in the same
way, as the string they are: the checks of `ChannelName.ofString?` and its like have no part in it.
-/
import MeshNode.Json.Reader
import MeshNode.Name

namespace MeshNode

/-- A whole text as a name: the name that is made of the string in it. -/
def nameOfBytes {α : Type} (make : String → α) (s : Bytes) : Except Json.Error α :=
  (Json.fromBytes Json.text s).map make

/-- A whole text as the name of a channel. -/
def ChannelName.ofBytes : Bytes → Except Json.Error ChannelName := nameOfBytes ChannelName.mk

/-- A whole text as the name of a node. -/
def NodeName.ofBytes : Bytes → Except Json.Error NodeName := nameOfBytes NodeName.mk

/-- A whole text as the path of a route; a leading separator stays. -/
def RouteName.ofBytes : Bytes → Except Json.Error RouteName := nameOfBytes RouteName.mk

end MeshNode
