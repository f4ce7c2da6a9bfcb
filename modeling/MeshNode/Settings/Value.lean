/-
# Values of variables

A variable of the environment is a text, and its value the first of these that the text
spells: a truth value, a whole number of 64 bits with a sign, a double, or the text itself.
A setting then takes a value in the form it needs.

* `Variable.ofText` is the value of a text;
* `Variable.toNat?` takes it as a number from zero on, `Variable.text` as a text.
-/
import MeshNode.Decimal.Layout
import MeshNode.Decimal.Reading

namespace MeshNode

/-- The value of a variable. -/
inductive Variable
  | bool (b : Bool)
  | int (n : Int)
  | float (x : Float)
  | text (s : String)

/-- Why a value is no number from zero on. -/
inductive NumberError
  | negative (n : Int)
  | notNumber (text : String)
  deriving DecidableEq, Repr

namespace Variable

/-- A text in lower case; only letters of ASCII have a case here. -/
def lower (s : String) : String := String.ofList (s.toList.map Char.toLower)

/-- The truth value that a text spells, in any case. -/
def bool? (s : String) : Option Bool :=
  match lower s with
  | "true" => some true
  | "false" => some false
  | _ => none

/-- The whole number of 64 bits that a text spells. -/
def int? (s : String) : Option Int :=
  (Decimal.parseInt? s.toList).filter fun n => -0x8000000000000000 ≤ n && n < 0x8000000000000000

/-- The double that a text spells. -/
def float? (s : String) : Option Float := (Decimal.Numeral.parse? s.toList).map (·.toFloat)

/-- The value that a text spells. -/
def ofText (s : String) : Variable :=
  match bool? s with
  | some b => .bool b
  | none =>
    match int? s with
    | some n => .int n
    | none =>
      match float? s with
      | some x => .float x
      | none => .text s

/-- The number that a word stands for, in any case. -/
def switch? (s : String) : Option Nat :=
  match lower s with
  | "true" | "on" | "yes" => some 1
  | "false" | "off" | "no" => some 0
  | _ => none

/-- The whole number nearest to a positive finite double, a half going up. -/
def roundParts (p : Decimal.Parts) : Nat :=
  if 0 ≤ p.exponent then p.mantissa * Nat.pow 2 p.exponent.toNat
  else (2 * p.mantissa + Nat.pow 2 (-p.exponent).toNat) / (2 * Nat.pow 2 (-p.exponent).toNat)

/-- The greatest unsigned 64-bit word. -/
def greatestWord : Nat := 0xFFFFFFFFFFFFFFFF

/-- The whole number nearest to a double, a half going away from zero; what lies outside the
unsigned 64-bit words becomes the nearest of them, and what is no number zero. -/
def roundToWord (x : Float) : Nat :=
  match Decimal.Class.ofFloat x with
  | .finite false magnitude => min (roundParts magnitude) greatestWord
  | .infinite false => greatestWord
  | .finite true _ | .infinite true | .zero _ | .nan => 0

/-- A value as a number from zero on. -/
def toNat? : Variable → Except NumberError Nat
  | .bool b => .ok b.toNat
  | .int n => if 0 ≤ n then .ok n.toNat else .error (.negative n)
  | .float x => .ok (roundToWord x)
  | .text s =>
    match switch? s with
    | some n => .ok n
    | none => .error (.notNumber s)

/-- A value as a text: numbers are written anew. -/
def toText : Variable → String
  | .bool b => if b then "true" else "false"
  | .int n => toString n
  | .float x => Decimal.Layout.plain.write x
  | .text s => s

end Variable
end MeshNode
