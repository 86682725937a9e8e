/-!
# Binary64 data

A binary64 datum is kept as its 64 bits, so the two zeros and every NaN stay distinct, and all
arithmetic is exact integer arithmetic followed by one rounding. Nothing here uses the built-in
floating-point type: every function is total and unfolds in a proof.
-/
set_option autoImplicit false

namespace Causeway

structure Binary64 where
  bits : UInt64
deriving DecidableEq, Inhabited

namespace Binary64

def negative (x : Binary64) : Bool := x.bits.toNat / Nat.pow 2 63 % 2 == 1

def field (x : Binary64) : Nat := x.bits.toNat / Nat.pow 2 52 % Nat.pow 2 11

def fraction (x : Binary64) : Nat := x.bits.toNat % Nat.pow 2 52

def isFinite (x : Binary64) : Bool := x.field != 2047
def isNaN (x : Binary64) : Bool := x.field == 2047 && x.fraction != 0
def isInfinite (x : Binary64) : Bool := x.field == 2047 && x.fraction == 0
def isZero (x : Binary64) : Bool := x.field == 0 && x.fraction == 0

/-- A finite datum denotes `±significand * 2 ^ exponent`. -/
def significand (x : Binary64) : Nat :=
  if x.field = 0 then x.fraction else Nat.pow 2 52 + x.fraction

def exponent (x : Binary64) : Int := if x.field = 0 then -1074 else (x.field : Int) - 1075

def ofParts (neg : Bool) (magnitude : Nat) : Binary64 :=
  ⟨(magnitude + if neg then Nat.pow 2 63 else 0).toUInt64⟩

def infinity (neg : Bool) : Binary64 := ofParts neg (2047 * Nat.pow 2 52)

def zero (neg : Bool) : Binary64 := ofParts neg 0

def invalid : Binary64 := ⟨0xfff8000000000000⟩

/-- The quotient `n / 2 ^ k` rounded to the nearest integer, a half to the even neighbour. -/
def roundShift (n k : Nat) : Nat :=
  let whole := n / Nat.pow 2 k
  let rest := n % Nat.pow 2 k
  if 2 * rest < Nat.pow 2 k then whole
  else if 2 * rest = Nat.pow 2 k then whole + whole % 2
  else whole + 1

/-- The datum nearest to `±m * 2 ^ e`, ties to the even significand, overflow to infinity.

The word of a finite datum of significand `n` and exponent `q` is `(q + 1074) * 2 ^ 52 + n`,
subnormal or not, so a carry out of the significand lands in the exponent field by itself. -/
def round (neg : Bool) (m : Nat) (e : Int) : Binary64 :=
  if m = 0 then zero neg
  else
    let q := max (e + m.log2 - 52) (-1074)
    let n := if q ≤ e then m * Nat.pow 2 (e - q).toNat else roundShift m (q - e).toNat
    ofParts neg (min ((q + 1074).toNat * Nat.pow 2 52 + n) (2047 * Nat.pow 2 52))

def ofInt (i : Int) : Binary64 := round (i < 0) i.natAbs 0

def integer? (x : Binary64) : Option Int :=
  if !x.isFinite then none
  else
    let magnitude : Option Nat :=
      if 0 ≤ x.exponent then some (x.significand * Nat.pow 2 x.exponent.toNat)
      else
        let d := Nat.pow 2 (-x.exponent).toNat
        if x.significand % d = 0 then some (x.significand / d) else none
    magnitude.map fun n => if x.negative then -(n : Int) else n

def neg (x : Binary64) : Binary64 := ⟨x.bits ^^^ 0x8000000000000000⟩

/-- A NaN operand comes out quiet, the first one before the second. -/
def propagate (x y : Binary64) : Binary64 :=
  let quiet (z : Binary64) : Binary64 := ⟨z.bits ||| 0x0008000000000000⟩
  if x.isNaN then quiet x else quiet y

/-- The finite datum `x` as a multiple of `2 ^ e`, for `e` at most its exponent. -/
def scaled (x : Binary64) (e : Int) : Int :=
  let n : Int := x.significand * Nat.pow 2 (x.exponent - e).toNat
  if x.negative then -n else n

def add (x y : Binary64) : Binary64 :=
  if x.isNaN || y.isNaN then propagate x y
  else if x.isInfinite then
    if y.isInfinite && x.negative != y.negative then invalid else x
  else if y.isInfinite then y
  else
    let e := min x.exponent y.exponent
    let sum := x.scaled e + y.scaled e
    if sum = 0 then zero (x.negative && y.negative) else round (sum < 0) sum.natAbs e

def sub (x y : Binary64) : Binary64 :=
  if x.isNaN || y.isNaN then propagate x y else add x y.neg

def mul (x y : Binary64) : Binary64 :=
  let sign := x.negative != y.negative
  if x.isNaN || y.isNaN then propagate x y
  else if x.isInfinite || y.isInfinite then
    if x.isZero || y.isZero then invalid else infinity sign
  else round sign (x.significand * y.significand) (x.exponent + y.exponent)

end Binary64

end Causeway
