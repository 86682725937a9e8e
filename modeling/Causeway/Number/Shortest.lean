import Causeway.Number.Binary64
/-!
# Shortest decimals

The digits of a positive finite binary64 datum: the fewest that still read back as the datum, and of
those the nearest to its value, an exact tie going up. The interval of decimals that read back
contains its ends exactly when the significand is even.
-/
set_option autoImplicit false

namespace Causeway

/-- The number `0.d₁d₂… * 10 ^ point`. -/
structure Decimal where
  digits : List Char
  point : Int
deriving DecidableEq

namespace Decimal

def digitsOf (n : Nat) : List Char := Nat.toDigits 10 n

/-- The `k` with `10 ^ (k - 1) ≤ p / q < 10 ^ k`, for positive `p` and `q`. -/
def exponentOf (p q : Nat) : Int :=
  if q ≤ p then (digitsOf (p / q)).length else 1 - ((digitsOf ((q - 1) / p)).length : Int)

structure Interval where
  low : Nat
  value : Nat
  high : Nat
  denominator : Nat
  closed : Bool

namespace Interval

/-- The decimals that read back as the finite datum `x`, measured in quarters of its last place.
Below a power of two the neighbour is only half as far away. -/
def of (x : Binary64) : Interval :=
  let m := x.significand
  let below := if x.fraction = 0 ∧ x.field ≠ 0 then 1 else 2
  let e := x.exponent - 2
  let up := Nat.pow 2 e.toNat
  { low := (4 * m - below) * up
    value := 4 * m * up
    high := (4 * m + 2) * up
    denominator := Nat.pow 2 (-e).toNat
    closed := m % 2 = 0 }

def inUnits (i : Interval) (k : Int) : Interval :=
  let up := Nat.pow 10 (-k).toNat
  { i with
    low := i.low * up
    value := i.value * up
    high := i.high * up
    denominator := i.denominator * Nat.pow 10 k.toNat }

def contains (i : Interval) (n : Nat) : Bool :=
  let p := n * i.denominator
  if i.closed then i.low ≤ p && p ≤ i.high else i.low < p && p < i.high

/-- The whole number in the interval that is nearest to its value, of two equally near the larger.
-/
def whole? (i : Interval) : Option Nat :=
  let a := i.value / i.denominator
  let upper := 2 * (i.value % i.denominator) ≥ i.denominator
  match i.contains a, i.contains (a + 1) with
  | true, true => some (if upper then a + 1 else a)
  | true, false => some a
  | false, true => some (a + 1)
  | false, false => none

end Interval

/-- Seventeen digits always suffice, so the search needs no more grids than that. -/
def search (i : Interval) (k : Int) : (grids n : Nat) → Nat × Nat
  | 0, n => (i.value, n)
  | grids + 1, n =>
    match (i.inUnits (k - n)).whole? with
    | some d => (d, n)
    | none => search i k grids (n + 1)

def shortest (x : Binary64) : Decimal :=
  let i := Interval.of x
  let k := exponentOf i.value i.denominator
  let (d, n) := search i k 17 1
  let ds := digitsOf d
  { digits := (ds.reverse.dropWhile (· == '0')).reverse
    point := k + ds.length - n }

end Decimal

end Causeway
