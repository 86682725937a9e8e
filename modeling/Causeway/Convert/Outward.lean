import Causeway.Object.Builtin
import Causeway.Native.Source
/-!
# Outward conversion

Native values become peer objects. A conversion borrows the value and yields a new unit, or fails; a
failing converter may leave an error pending, and so may one that succeeds.
-/
set_option autoImplicit false

namespace Causeway

variable {U α : Type}

/-- Gives back items, the units `beyond` them, and what was converted before them. -/
def abandon (units : α → List Handle) (items : List α) (beyond : List Handle)
    (converted : Array Handle) : Act U Unit :=
  releaseAll (items.flatMap units ++ beyond ++ converted.toList)

def convertFrom (units : α → List Handle) (convert : α → Act U (Option Handle))
    (beyond : List Handle) :
    (items : List α) → (index : Nat) → (converted : Array Handle) →
      Act U (Except Failure (List Handle))
  | [], _, converted => do
    holding converted.toList (releaseAll beyond)
    pure (.ok converted.toList)
  | x :: xs, index, converted => do
    let out ← (convert x).onFault (abandon units (x :: xs) beyond converted)
    match out, ← Indicator.isSet with
    | some h, false =>
      let converted := converted.push h
      (releaseAll (units x)).onFault (abandon units xs beyond converted)
      convertFrom units convert beyond xs (index + 1) converted
    | out, _ =>
      let left := out.toList ++ (x :: xs).flatMap units ++ beyond
      holding left (releaseAll converted.toList)
      Indicator.clear
      Act.emit (.conversionFailed .element index)
      releaseAll left
      pure (.error (.of (.elementConversion index)))

/-- Converts every item or none. The sequence is taken over, with the `units` of its items: these
are none where it is only lent.

When one fails, what was converted is released and the indicator is clear. An error that was pending
beforehand is left alone and nothing is converted. Room for the objects is made first, for as many
as the sequence promises. -/
def convertAll {t : NativeType} (units : t.Value → List Handle)
    (convert : t.Value → Act U (Option Handle)) (source : Source t) :
    Act U (Except Failure (List Handle)) := do
  if ← Indicator.isSet then
    releaseAll (source.stored.flatMap units)
    pure (.error .alreadyRaised)
  else
    holding (source.stored.flatMap units) (Act.reserve source.hint Handle.width)
    convertFrom units convert (source.beyond.flatMap units) source.toList 0 #[]

def toPeer : (t : NativeType) → t.Value → Act U (Option Handle)
  | .i64, v => some <$> alloc (.int v)
  | .i32, v => some <$> alloc (.int v.toInt64)
  | .usize, v =>
    if v.toNat < Nat.pow 2 63 then some <$> alloc (.int (Int64.ofNat v.toNat))
    else do
      raise .overflowError "usize value does not fit a peer int"
      pure none
  | .f64, v => some <$> alloc (.float v)
  | .bool, v => some <$> alloc (.bool v)
  | .text, v => some <$> alloc (.str v)
  | .unit, _ => some <$> alloc .none
  | .object, h => some <$> acquire h
  | .option _, none => some <$> alloc .none
  | .option t, some v => toPeer t v
  | .pair a b, (x, y) => do
    match ← toPeer a x with
    | none => pure none
    | some h =>
      match ← holding [h] (toPeer b y) with
      | none =>
        release h
        pure none
      | some k => some <$> newTuple [h, k]
  | .triple a b c, (x, y, z) => do
    match ← toPeer a x with
    | none => pure none
    | some h =>
      match ← holding [h] (toPeer b y) with
      | none =>
        release h
        pure none
      | some k =>
        match ← holding [k, h] (toPeer c z) with
        | none =>
          releaseAll [k, h]
          pure none
        | some l => some <$> newTuple [h, k, l]
  | .vec t, vs => do
    match ← convertAll (fun _ => []) (toPeer t) (.listed vs true) with
    | .ok items => some <$> alloc (.list items)
    | .error f =>
      f.reflect
      pure none
  | .view _, h => some <$> acquire h
  | .callable, h => some <$> acquire h

def convertOut (code : Option CodeId) (t : NativeType) (v : t.Value) : Act U (Option Handle) :=
  match code with
  | none => toPeer t v
  | some code => fun env w => env.hooks.toPeer code t v w

end Causeway
