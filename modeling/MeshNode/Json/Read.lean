/-
# Reading JSON values

The reader of values of any shape.  A value may hold arrays and objects inside one another,
but only up to a budget: a text that opens one container more is refused, whatever follows.
Of members with equal keys the last counts.

One key is not like the others.  An object whose first key is the mark `rawMark` does not stand for
an object: it has this one member, a string, and what the string holds is the text of a value of its
own, with a budget of its own.  That value is what is read.

* `valueWith` reads a value within a budget of open containers, given what is made of a text inside;
* `value` is this reader with `ofText` for the texts inside, which may again hold others;
* `Json.ofBytes` reads a whole text as one value, `nesting` containers deep at most;
* `Json.toU32` is the conversion of a value to a 32-bit number.
-/
import MeshNode.Json.Skip

namespace MeshNode.Json

open Token

/-- How many containers of a text may be open at once. -/
def nesting : Nat := 127

/-! ## 1. Texts inside a text -/

/-- The text behind the first key of an object, from behind its opening brace, if this key is the
mark. -/
def rawKey? (limit : Nat) (s : Bytes) : Option Bytes :=
  match nextKey true s with
  | .ok (.inl s) =>
    match literal limit s with
    | .ok (key, s) => bif isMark key then some s else none
    | .error _ => none
  | _ => none

/-- The value whose text stands behind the mark, and the end of the object around it. -/
def rawValue (inner : Nat → Bytes → Except Error Json) : Reader Json := fun limit s =>
  match memberValue (textFor .raw) limit s with
  | .error e => .error e
  | .ok (t, s) =>
    match inner limit (Utf8.encode t) with
    | .error e => .error (.inside e)
    | .ok v =>
      match closeObject s with
      | .error e => .error e
      | .ok s => .ok (v, s)

/-! ## 2. Values -/

/-- The value at the start of a text, which may not open a container. -/
def scalar : Reader Json := fun limit s =>
  match found limit s with
  | .error e => .error e
  | .ok (what, s) =>
    match what with
    | .null => .ok (.null, s)
    | .bool b => .ok (.bool b, s)
    | .int n => .ok (.int n, s)
    | .float x => .ok (.float x, s)
    | .text t => .ok (.str t, s)
    | .array | .object => .error .malformed

/-- The reader of a member puts its value to the others, under its key. -/
def entryWith (value : Reader Json) (key : String) (entries : List (String × Json)) :
    Reader (List (String × Json)) := fun limit s =>
  (memberValue value limit s).map fun (v, s) => (Dictionary.insert key v entries, s)

/-- The value at the start of a text, which may open `budget` containers, where `inner` makes
values of the texts inside. -/
def valueWith (inner : Nat → Bytes → Except Error Json) : Nat → Reader Json
  | 0 => scalar
  | budget + 1 => fun limit s =>
    match skipSpaces s with
    | [] => .error .endOfText
    | b :: rest =>
      if b = openBracket then
        (items (valueWith inner budget) limit rest).map fun (vs, s) => (.arr vs, s)
      else if b = openBrace then
        match rawKey? limit rest with
        | some s => rawValue inner limit s
        | none =>
          (members (entryWith (valueWith inner budget)) [] limit rest).map fun (vs, s) => (.obj vs, s)
      else scalar limit (b :: rest)

/-- A whole text as one value, where texts stand inside one another for `rounds` rounds at most. -/
def ofText : Nat → Bytes → Except Error Json
  | 0, _ => .error .endOfText
  | rounds + 1, s => fromBytes (valueWith (fun _ => ofText rounds) nesting) s

/-- The value at the start of a text, which may open `budget` containers.  A text inside is shorter
than the text around it, so the bound on the loops is one on these rounds too. -/
def value (budget : Nat) : Reader Json := valueWith ofText budget

/-- A whole text as one value. -/
def ofBytes (s : Bytes) : Except Error Json := fromBytes (value nesting) s

/-- A value as a number of 32 bits. -/
def toU32 : Json → Except Mismatch Nat
  | .int n =>
    if 0 ≤ n ∧ n < 0x100000000 then .ok n.toNat else .error (.wrongValue (.int n) .u32)
  | v => .error (.wrongType (.ofJson v) .u32)

end MeshNode.Json
