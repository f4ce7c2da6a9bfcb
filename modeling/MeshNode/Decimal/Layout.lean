/-
# Written decimals

How a double is written once its digits are known.  A `Layout` holds the decisions of a
format: where positional notation ends, what marks a whole number, how an exponent is
signed, and how the values without digits are spelled.

* `Layout.write` writes a double in a layout;
* the layouts themselves stand with the formats that use them.
-/
import MeshNode.Decimal.Shortest

namespace MeshNode.Decimal

/-- The decisions of a format.  A number `d.ddd * 10 ^ e` is written positionally when `e` lies
between `least` and `greatest`, where an absent bound does not bind. -/
structure Layout where
  least : Option Int
  greatest : Option Int
  /-- Written after a whole number in positional notation. -/
  whole : String
  /-- Written in front of a positive exponent. -/
  plus : String
  nan : String
  infinity : String
  negativeInfinity : String
  deriving DecidableEq, Repr

namespace Layout

/-- Whether a number with this exponent is written positionally. -/
def positional (l : Layout) (e : Int) : Bool :=
  (l.least.all (· ≤ e)) && (l.greatest.all (e ≤ ·))

/-- A run of zeros. -/
def zeros (n : Nat) : String := String.ofList (List.replicate n '0')

/-- The digits of a positive number with the point in its place. -/
def writePositional (l : Layout) (digits : List Char) (exponent : Int) : String :=
  if 0 ≤ exponent then String.ofList digits ++ zeros exponent.toNat ++ l.whole
  else
    let inside : Int := digits.length + exponent
    if 0 < inside then
      String.ofList (digits.take inside.toNat) ++ "." ++
        String.ofList (digits.drop inside.toNat)
    else "0." ++ zeros (-inside).toNat ++ String.ofList digits

/-- The digits of a positive number, the first in front of the point, with an exponent. -/
def writeScientific (l : Layout) (digits : List Char) (e : Int) : String :=
  let fraction := digits.drop 1
  String.ofList (digits.take 1) ++ (if fraction.isEmpty then "" else "." ++ String.ofList fraction)
    ++ "e" ++ (if 0 < e then l.plus else "") ++ toString e

/-- A point of a decimal grid. -/
def writePoint (l : Layout) (p : Point) : String :=
  let digits := Nat.toDigits 10 p.digits
  let e := p.exponent + digits.length - 1
  if l.positional e then l.writePositional digits p.exponent else l.writeScientific digits e

/-- A double by its class. -/
def writeClass (l : Layout) : Class → String
  | .nan => l.nan
  | .infinite negative => if negative then l.negativeInfinity else l.infinity
  | .zero negative => (if negative then "-0" else "0") ++ l.whole
  | .finite negative magnitude =>
    (if negative then "-" else "") ++ l.writePoint magnitude.shortest

/-- A double. -/
def write (l : Layout) (x : Float) : String := l.writeClass (.ofFloat x)

end Layout

/-- Plain positional notation, whatever the magnitude, and whole numbers without a point. -/
def Layout.plain : Layout := ⟨none, none, "", "", "NaN", "inf", "-inf"⟩

/-- The form for diagnosis: a whole number keeps its point, and magnitudes below a
ten-thousandth or from ten to the sixteenth on take an exponent. -/
def Layout.diagnostic : Layout := ⟨some (-4), some 15, ".0", "", "NaN", "inf", "-inf"⟩

end MeshNode.Decimal
