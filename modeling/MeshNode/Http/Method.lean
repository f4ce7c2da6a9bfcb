/-
# Methods

What a request asks for.  Any token is a method; upper and lower case are different methods.
-/
import MeshNode.Http.Token

namespace MeshNode

/-- The method of a request. -/
structure Method where
  text : String
  deriving DecidableEq, Repr, Inhabited

namespace Method

def get : Method := ⟨"GET"⟩
def head : Method := ⟨"HEAD"⟩
def post : Method := ⟨"POST"⟩
def put : Method := ⟨"PUT"⟩
def delete : Method := ⟨"DELETE"⟩

/-- The method that a text names. -/
def ofString? (s : String) : Option Method := if Http.isToken s then some ⟨s⟩ else none

end Method
end MeshNode
