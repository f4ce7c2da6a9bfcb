/-
# Reading decimals

The double nearest to a decimal text, as configuration values spell it: an optional sign,
then a word for infinity or for the value that is no number, or digits with an optional
point and an optional exponent.  One side of the point may be empty, not both.

* `Numeral` is the parsed text, `Numeral.parse?` the parser;
* `Numeral.toFloat` rounds to nearest.
-/

namespace MeshNode.Decimal

/-- The number that digits spell, most significant first. -/
def natOfDigits (digits : List Char) : Nat :=
  digits.foldl (fun n c => 10 * n + (c.toNat - '0'.toNat)) 0

/-- Whether a character is a decimal digit of the ASCII range. -/
def isDigit (c : Char) : Bool := '0' ≤ c && c ≤ '9'

/-- A run of digits that is not empty, and what follows it. -/
def takeDigits (cs : List Char) : List Char × List Char := (cs.takeWhile isDigit, cs.dropWhile isDigit)

/-- An optional sign, whether it is a minus, and what follows it. -/
def takeSign : List Char → Bool × List Char
  | '-' :: rest => (true, rest)
  | '+' :: rest => (false, rest)
  | rest => (false, rest)

/-- The number of a text that is an optional sign and digits. -/
def parseInt? (cs : List Char) : Option Int :=
  let (negative, digits) := takeSign cs
  if digits.isEmpty || !digits.all isDigit then none
  else some (if negative then -(natOfDigits digits : Int) else natOfDigits digits)

/-- A number as a text spells it: `digits * 10 ^ exponent`, or a word. -/
inductive Magnitude
  | nan
  | infinite
  | decimal (digits : List Char) (exponent : Int)
  deriving DecidableEq, Repr

/-- A magnitude with its sign. -/
structure Numeral where
  negative : Bool
  magnitude : Magnitude
  deriving DecidableEq, Repr

/-- The exponent at the end of a numeral: nothing, or its letter with a whole number. -/
def parseExponent? : List Char → Option Int
  | [] => some 0
  | c :: rest => if c = 'e' ∨ c = 'E' then parseInt? rest else none

/-- The words for magnitudes without digits, in any case. -/
def parseWord? (cs : List Char) : Option Magnitude :=
  match String.ofList (cs.map Char.toLower) with
  | "nan" => some .nan
  | "inf" | "infinity" => some .infinite
  | _ => none

/-- A magnitude in digits. -/
def parseDigits? (cs : List Char) : Option Magnitude :=
  let (whole, rest) := takeDigits cs
  let (fraction, rest) :=
    match rest with
    | '.' :: rest => takeDigits rest
    | rest => ([], rest)
  if whole.isEmpty && fraction.isEmpty then none
  else (parseExponent? rest).map fun e => .decimal (whole ++ fraction) (e - fraction.length)

/-- The numeral that a text spells. -/
def Numeral.parse? (cs : List Char) : Option Numeral :=
  let (negative, rest) := takeSign cs
  ((parseWord? rest).or (parseDigits? rest)).map (Numeral.mk negative)

/-- The double nearest to `digits * 10 ^ exponent`.  Magnitudes beyond the range of doubles
are told by their leading digit alone, so that no power is formed for them. -/
def nearest (digits : Nat) (exponent : Int) : Float :=
  let top := (Nat.toDigits 10 digits).length + exponent
  if digits = 0 ∨ top < -400 then 0.0
  else if 400 < top then 1.0 / 0.0
  else if 0 ≤ exponent then Float.ofScientific (digits * Nat.pow 10 exponent.toNat) false 0
  else Float.ofScientific digits true (-exponent).toNat

/-- The double nearest to a magnitude. -/
def Magnitude.toFloat : Magnitude → Float
  | .nan => 0.0 / 0.0
  | .infinite => 1.0 / 0.0
  | .decimal digits exponent => nearest (natOfDigits digits) exponent

/-- The double nearest to a numeral. -/
def Numeral.toFloat (n : Numeral) : Float :=
  if n.negative then -n.magnitude.toFloat else n.magnitude.toFloat

end MeshNode.Decimal
