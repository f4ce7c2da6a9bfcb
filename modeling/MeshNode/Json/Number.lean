/-
# JSON numbers

A number is read in two steps.  `Numeral.read` takes the longest text of the grammar: an
optional minus, digits without a leading zero, an optional fraction, an optional exponent.
`Numeral.value?` gives its value: a text of digits alone stays a whole number when it fits a
64-bit word, signed below zero and unsigned above, and everything else is a double.

A double keeps the leading digits that fit an unsigned word and counts the others as powers
of ten; the word becomes a double and is scaled once, or twice below the range of a single
power.  A result beyond the range of doubles is no value.
-/
import MeshNode.Json.Error

namespace MeshNode.Json

open Token

/-- The parts of a number, digits by their values. -/
structure Numeral where
  negative : Bool
  whole : List Nat
  fraction : Option (List Nat)
  /-- The exponent: whether it is negative, and its digits. -/
  exponent : Option (Bool × List Nat)
  deriving DecidableEq, Repr

namespace Numeral

/-! ## 1. Reading -/

/-- The leading digits of a text, and what follows them. -/
def takeDigits (s : Bytes) : List Nat × Bytes :=
  ((s.takeWhile isDigit).map digitValue, s.dropWhile isDigit)

/-- Digits of which there must be one. -/
def someDigits (s : Bytes) : Except Error (List Nat × Bytes) :=
  match s with
  | [] => .error .endOfText
  | b :: _ => if isDigit b then .ok (takeDigits s) else .error .malformed

/-- The digits in front of a point: a zero alone, or digits that start with none. -/
def readWhole (s : Bytes) : Except Error (List Nat × Bytes) :=
  match someDigits s with
  | .error e => .error e
  | .ok (digits, rest) =>
    if digits.head? = some 0 ∧ 1 < digits.length then .error .malformed else .ok (digits, rest)

/-- The fraction, if a point follows. -/
def readFraction (s : Bytes) : Except Error (Option (List Nat) × Bytes) :=
  match s with
  | [] => .ok (none, s)
  | b :: rest =>
    if b = point then
      match someDigits rest with
      | .error e => .error e
      | .ok (digits, rest) => .ok (some digits, rest)
    else .ok (none, s)

/-- The sign of an exponent. -/
def readSign (s : Bytes) : Bool × Bytes :=
  match s with
  | [] => (false, s)
  | b :: rest => if b = plus then (false, rest) else if b = minus then (true, rest) else (false, s)

/-- The exponent, if its letter follows. -/
def readExponent (s : Bytes) : Except Error (Option (Bool × List Nat) × Bytes) :=
  match s with
  | [] => .ok (none, s)
  | b :: rest =>
    if isExponentMark b then
      let (negative, rest) := readSign rest
      match someDigits rest with
      | .error e => .error e
      | .ok (digits, rest) => .ok (some (negative, digits), rest)
    else .ok (none, s)

/-- The longest number at the start of a text, after its sign. -/
def readUnsigned (negative : Bool) (s : Bytes) : Except Error (Numeral × Bytes) :=
  match readWhole s with
  | .error e => .error e
  | .ok (whole, s) =>
    match readFraction s with
    | .error e => .error e
    | .ok (fraction, s) =>
      match readExponent s with
      | .error e => .error e
      | .ok (exponent, s) => .ok (⟨negative, whole, fraction, exponent⟩, s)

/-- The longest number at the start of a text. -/
def read (s : Bytes) : Except Error (Numeral × Bytes) :=
  match s with
  | [] => .error .endOfText
  | b :: rest => if b = minus then readUnsigned true rest else readUnsigned false s

/-! ## 2. Values -/

/-- The number that digits spell. -/
def ofDigits (digits : List Nat) : Nat := digits.foldl (fun n d => 10 * n + d) 0

/-- The first number that an unsigned 64-bit word does not hold. -/
def wordBound : Nat := 0x10000000000000000

/-- The word that leading digits spell after `n`, and the digits that no longer fit. -/
def fill (n : Nat) : List Nat → Nat × List Nat
  | [] => (n, [])
  | d :: rest => if 10 * n + d < wordBound then fill (10 * n + d) rest else (n, d :: rest)

/-- A power of ten within the range of doubles. -/
def powerOfTen (k : Nat) : Float := Float.ofScientific 1 false k

/-- A word times a power of ten; nothing beyond the range of doubles. -/
def scale (word : Nat) (exponent : Int) : Option Float :=
  let x := (UInt64.ofNat word).toFloat
  if 0 ≤ exponent then
    if 308 < exponent then (if word = 0 then some 0.0 else none)
    else
      let y := x * powerOfTen exponent.toNat
      if y.isInf then none else some y
  else
    let k := (-exponent).toNat
    if k ≤ 308 then some (x / powerOfTen k)
    else if k ≤ 616 then some (x / powerOfTen 308 / powerOfTen (k - 308))
    else some 0.0

/-- The exponents that are told apart; from here on only the sign matters. -/
def exponentBound : Nat := 0x80000000

/-- The value of an exponent, as far as it matters. -/
def exponentValue (negative : Bool) (digits : List Nat) : Int :=
  let n := digits.foldl (fun n d => min (10 * n + d) exponentBound) 0
  if negative then -n else n

/-- The magnitude of a number as a double. -/
def magnitude? (n : Numeral) : Option Float :=
  let (word, dropped) := fill 0 n.whole
  let fraction := n.fraction.getD []
  let (word, unused) := fill word fraction
  let shift : Int := dropped.length - ((fraction.length - unused.length : Nat) : Int)
  match n.exponent with
  | none => scale word shift
  | some (negative, digits) =>
    let e := exponentValue negative digits
    if e.natAbs = exponentBound then (if negative ∨ word = 0 then some 0.0 else none)
    else scale word (shift + e)

/-- The value of a number as a double. -/
def float? (n : Numeral) : Option Json :=
  n.magnitude?.map fun x => .float (if n.negative then -x else x)

/-- The value of a number; nothing for one beyond the range of doubles. -/
def value? (n : Numeral) : Option Json :=
  match n.fraction, n.exponent with
  | none, none =>
    let (word, dropped) := fill 0 n.whole
    if !dropped.isEmpty then n.float?
    else if !n.negative then some (.int word)
    else if 0 < word ∧ word ≤ 0x8000000000000000 then some (.int (-word))
    else n.float?
  | _, _ => n.float?

end Numeral

/-- The number at the start of a text. -/
def readNumber (s : Bytes) : Except Error (Json × Bytes) :=
  match Numeral.read s with
  | .error e => .error e
  | .ok (n, rest) =>
    match n.value? with
    | none => .error .malformed
    | some v => .ok (v, rest)

end MeshNode.Json
