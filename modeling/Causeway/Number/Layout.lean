import Causeway.Number.Shortest
/-!
# Number text

How a shortest decimal is written: positionally from `10 ^ -4` up to, and without, `10 ^ 16`, with
at least one digit after the point; otherwise with one digit before the point and a bare exponent.
-/
set_option autoImplicit false

namespace Causeway

structure NumberLayout where
  /-- Least and greatest place of the point at which a number is written positionally. -/
  least : Int
  greatest : Int
  nan : String
  infinite : String

namespace NumberLayout

def peer : NumberLayout where
  least := -3
  greatest := 16
  nan := "NaN"
  infinite := "inf"

def zeros (n : Nat) : List Char := List.replicate n '0'

def positional (d : Decimal) : List Char :=
  let n := d.digits.length
  if d.point ≤ 0 then ['0', '.'] ++ zeros (-d.point).toNat ++ d.digits
  else if n ≤ d.point.toNat then d.digits ++ zeros (d.point.toNat - n) ++ ['.', '0']
  else d.digits.take d.point.toNat ++ '.' :: d.digits.drop d.point.toNat

def scientific (d : Decimal) : List Char :=
  let tail := match d.digits.drop 1 with
    | [] => []
    | ds => '.' :: ds
  d.digits.take 1 ++ tail ++ 'e' :: (toString (d.point - 1)).toList

def text (l : NumberLayout) (x : Binary64) : String :=
  if x.isNaN then l.nan
  else
    let sign := if x.negative then "-" else ""
    if x.isInfinite then sign ++ l.infinite
    else if x.isZero then sign ++ "0.0"
    else
      let d := Decimal.shortest x
      sign ++ String.ofList
        (if l.least ≤ d.point ∧ d.point ≤ l.greatest then positional d else scientific d)

end NumberLayout

end Causeway
