import Causeway.Native.Type
/-!
# Native sequences

The finite sequences native code hands to the peer. A gapped sequence reports its end once in the
middle; whoever has seen an end never asks again, so what lies behind the gap is only given up.
-/
set_option autoImplicit false

namespace Causeway

inductive Source : NativeType → Type where
  /-- The items in order; an uncounted sequence promises no length. -/
  | listed {t : NativeType} (items : List t.Value) (counted : Bool) : Source t
  /-- The items in order, but for one end after the first `wait` of them. -/
  | gapped {t : NativeType} (wait : Nat) (items : List t.Value) : Source t
  /-- The integers from `next` up to, and without, `stop`. -/
  | span (next stop : Int) : Source .i64

namespace Source

variable {t : NativeType}

def spent : Source t := listed [] false

def next? : Source t → Option (t.Value × Source t)
  | listed [] _ => none
  | listed (x :: xs) c => some (x, listed xs c)
  | gapped (n + 1) (x :: xs) => some (x, gapped n xs)
  | gapped _ _ => none
  | span a b => if a < b then some (Int64.ofInt a, span (a + 1) b) else none

def toList : Source t → List t.Value
  | listed xs _ => xs
  | gapped n xs => xs.take n
  | span a b => (List.range (b - a).toNat).map fun (i : Nat) => Int64.ofInt (a + i)

def beyond : Source t → List t.Value
  | listed _ _ => []
  | gapped n xs => xs.drop n
  | span _ _ => []

/-- A lower bound on the items left, as far as a word can say it. -/
def hint : Source t → Nat
  | listed xs true => xs.length
  | listed _ false => 0
  | gapped _ _ => 0
  | span a b => min (b - a).toNat (Nat.pow 2 64 - 1)

def stored : Source t → List t.Value
  | listed xs _ => xs
  | gapped _ xs => xs
  | span _ _ => []

def units (s : Source t) : List Handle := s.stored.flatMap t.units

end Source

end Causeway
