/-
# JSON values

The payload of a message.  Numbers are whole numbers or doubles, kept apart because they are
written apart; the members of an object are in the order of their keys, each key once.

* the members of an object are a `Dictionary`, sorted and without repeats;
* `Json.ordered` says that every object inside a value is in order, which all readers keep, and a
  `Document` is a value that is;
* `Json.depth` counts the arrays and objects that are open at once;
* `Json.rawFree` says that no object inside a value would be taken for the text of another value.
-/
import MeshNode.Dictionary

namespace MeshNode

/-- A JSON value. -/
inductive Json
  | null
  | bool (b : Bool)
  | int (n : Int)
  | float (x : Float)
  | str (s : String)
  | arr (items : List Json)
  | obj (members : List (String × Json))
  deriving Inhabited

namespace Json

/-! ## 1. Measures and predicates -/

mutual
/-- How many arrays and objects are open at the deepest point of a value. -/
def depth : Json → Nat
  | .null | .bool _ | .int _ | .float _ | .str _ => 0
  | .arr items => 1 + depthItems items
  | .obj members => 1 + depthMembers members
/-- The greatest depth of a list of items. -/
def depthItems : List Json → Nat
  | [] => 0
  | v :: rest => max (depth v) (depthItems rest)
/-- The greatest depth of a list of members. -/
def depthMembers : List (String × Json) → Nat
  | [] => 0
  | (_, v) :: rest => max (depth v) (depthMembers rest)
end

mutual
/-- Whether every object inside a value has its keys in strictly increasing order. -/
def ordered : Json → Bool
  | .null | .bool _ | .int _ | .float _ | .str _ => true
  | .arr items => orderedItems items
  | .obj members => Dictionary.sorted members && orderedMembers members
/-- `ordered` for every item. -/
def orderedItems : List Json → Bool
  | [] => true
  | v :: rest => ordered v && orderedItems rest
/-- `ordered` for every member. -/
def orderedMembers : List (String × Json) → Bool
  | [] => true
  | (_, v) :: rest => ordered v && orderedMembers rest
end

/-- The whole numbers that stay whole: those of a signed or an unsigned 64-bit word. -/
def isWord (n : Int) : Bool := -0x8000000000000000 ≤ n && n < 0x10000000000000000

mutual
/-- Whether a value holds no double, and no whole number that would be read as one. -/
def floatFree : Json → Bool
  | .null | .bool _ | .str _ => true
  | .int n => isWord n
  | .float _ => false
  | .arr items => floatFreeItems items
  | .obj members => floatFreeMembers members
/-- `floatFree` for every item. -/
def floatFreeItems : List Json → Bool
  | [] => true
  | v :: rest => floatFree v && floatFreeItems rest
/-- `floatFree` for every member. -/
def floatFreeMembers : List (String × Json) → Bool
  | [] => true
  | (_, v) :: rest => floatFree v && floatFreeMembers rest
end

/-- The key that makes an object stand for a value whose text it holds: that text is the one member
of the object, under this key. -/
def rawMark : String := "$serde_json::private::RawValue"

/-- Whether a key is the mark, character by character. -/
def isMark (key : String) : Bool := key.toList == rawMark.toList

theorem isMark_iff {key : String} : isMark key = true ↔ key = rawMark := by
  rw [isMark, beq_iff_eq, String.toList_inj]

/-- Whether members begin with the mark. -/
def marked : List (String × Json) → Bool
  | [] => false
  | (key, _) :: _ => isMark key

mutual
/-- Whether no object inside a value begins with the mark. -/
def rawFree : Json → Bool
  | .null | .bool _ | .int _ | .float _ | .str _ => true
  | .arr items => rawFreeItems items
  | .obj members => !marked members && rawFreeMembers members
/-- `rawFree` for every item. -/
def rawFreeItems : List Json → Bool
  | [] => true
  | v :: rest => rawFree v && rawFreeItems rest
/-- `rawFree` for every member. -/
def rawFreeMembers : List (String × Json) → Bool
  | [] => true
  | (_, v) :: rest => rawFree v && rawFreeMembers rest
end

/-- A value with its keys in order, which is what readers give back and what callers publish. -/
structure Document where
  value : Json
  ordered : value.ordered = true

instance : CoeOut Document Json := ⟨Document.value⟩

/-! ## 2. Equality -/

mutual
/-- Whether two values are equal; doubles are compared as numbers. -/
def same : Json → Json → Bool
  | .null, .null => true
  | .bool a, .bool b => a == b
  | .int a, .int b => a == b
  | .float a, .float b => a == b
  | .str a, .str b => a == b
  | .arr a, .arr b => sameItems a b
  | .obj a, .obj b => sameMembers a b
  | _, _ => false
/-- Whether two lists of items are equal. -/
def sameItems : List Json → List Json → Bool
  | [], [] => true
  | a :: as, b :: bs => same a b && sameItems as bs
  | _, _ => false
/-- Whether two lists of members are equal. -/
def sameMembers : List (String × Json) → List (String × Json) → Bool
  | [], [] => true
  | (j, a) :: as, (k, b) :: bs => j == k && same a b && sameMembers as bs
  | _, _ => false
end

instance : BEq Json := ⟨same⟩

end Json
end MeshNode
