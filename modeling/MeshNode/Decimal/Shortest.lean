/-
# The shortest decimal of a double

A finite double is `m * 2 ^ q` for a whole number `m`.  The real numbers that round to it
form an interval around it, and the interval holds its ends exactly when `m` is even.  The
shortest decimal of the double is the point of the coarsest grid `10 ^ k` that meets the
interval, the nearer one if two points do, the even one if both are equally near.

* `Parts.ofFloat` takes a double apart;
* `Parts.onGrid?` looks for a point of one grid in the interval, in whole numbers only;
* `Parts.shortest` walks from a grid coarser than the double to finer ones.

Seventeen digits always suffice, so the walk ends within a fixed number of grids.
-/

namespace MeshNode.Decimal

/-- A positive finite double: `mantissa * 2 ^ exponent`.  `leading` says that the mantissa is
the least of its binade, where the next smaller double is only half as far away. -/
structure Parts where
  mantissa : Nat
  exponent : Int
  leading : Bool
  deriving DecidableEq, Repr

/-- A whole number of steps on a decimal grid: `digits * 10 ^ exponent`. -/
structure Point where
  digits : Nat
  exponent : Int
  deriving DecidableEq, Repr

/-- What a double is: not a number, or a sign with infinity, zero or a finite magnitude. -/
inductive Class
  | nan
  | infinite (negative : Bool)
  | zero (negative : Bool)
  | finite (negative : Bool) (magnitude : Parts)
  deriving DecidableEq, Repr

/-- The class of the double with the given bit pattern. -/
def Class.ofBits (bits : Nat) : Class :=
  let negative : Bool := bits / 0x8000000000000000 % 2 == 1
  let biased : Nat := bits / 0x10000000000000 % 0x800
  let fraction : Nat := bits % 0x10000000000000
  if biased = 2047 then if fraction = 0 then .infinite negative else .nan
  else if biased = 0 then
    if fraction = 0 then .zero negative else .finite negative ⟨fraction, -1074, false⟩
  else
    .finite negative
      ⟨0x10000000000000 + fraction, (biased : Int) - 1075, fraction == 0 && 1 < biased⟩

/-- The class of a double. -/
def Class.ofFloat (x : Float) : Class := .ofBits x.toBits.toNat

namespace Parts

/-- Four times the mantissa, so that the ends of the interval are whole numbers too. -/
def centre (p : Parts) : Nat := 4 * p.mantissa

/-- The lower end of the interval, on the scale of `centre`. -/
def lower (p : Parts) : Nat := p.centre - (if p.leading then 1 else 2)

/-- The upper end of the interval, on the scale of `centre`. -/
def upper (p : Parts) : Nat := p.centre + 2

/-- The factors that put `n` on the scale of `centre` and `c` on the grid `10 ^ k` side by
side: `n` times the first and `c` times the second are in the same unit. -/
def factors (p : Parts) (k : Int) : Nat × Nat :=
  (Nat.pow 2 (p.exponent - 2).toNat * Nat.pow 10 (-k).toNat,
    Nat.pow 2 (2 - p.exponent).toNat * Nat.pow 10 k.toNat)

/-- Whether the point `c` of the grid `10 ^ k` rounds to the double. -/
def holds (p : Parts) (k : Int) (c : Nat) : Bool :=
  let (f, g) := p.factors k
  if p.mantissa % 2 = 0 then p.lower * f ≤ c * g && c * g ≤ p.upper * f
  else p.lower * f < c * g && c * g < p.upper * f

/-- The point of the grid `10 ^ k` that rounds to the double and is nearest to it. -/
def onGrid? (p : Parts) (k : Int) : Option Nat :=
  let (f, g) := p.factors k
  let below := p.centre * f / g
  match p.holds k below, p.holds k (below + 1) with
  | false, false => none
  | true, false => some below
  | false, true => some (below + 1)
  | true, true =>
    let rest := p.centre * f % g
    if 2 * rest < g then some below
    else if g < 2 * rest then some (below + 1)
    else if below % 2 = 0 then some below else some (below + 1)

/-- An exponent of a power of ten above the double. -/
def coarsest (p : Parts) : Int :=
  (p.exponent + Nat.log2 p.mantissa + 1) * 30103 / 100000 + 1

/-- The first hit on the grids `10 ^ k`, `10 ^ (k - 1)` and so on, `fuel` of them. -/
def search (p : Parts) : Nat → Int → Point
  | 0, k => ⟨0, k⟩
  | fuel + 1, k =>
    match p.onGrid? k with
    | some c => ⟨c, k⟩
    | none => search p fuel (k - 1)

/-- The shortest decimal that reads back as the double. -/
def shortest (p : Parts) : Point := p.search 24 p.coarsest

end Parts
end MeshNode.Decimal
