import Causeway.View
/-!
# Inward conversion

Peer objects become native values. A conversion borrows the object; what it yields owns its units. A
failure leaves an error pending, and nothing that was made on the way.
-/
set_option autoImplicit false

namespace Causeway

variable {U α : Type}

def expectTuple (h : Handle) (arity : Nat) : Act U (Option (List Handle)) := do
  match ← tupleItems h with
  | some items =>
    if items.length = arity then pure (some items)
    else
      holding items (raiseType s!"expected a tuple of length {arity}, got {items.length}")
      releaseAll items
      pure none
  | none =>
    raiseType s!"expected tuple, not {← typeNameOf h}"
    pure none

def reflected : Except Failure α → Act U (Option α)
  | .ok a => pure (some a)
  | .error f => do
    f.reflect
    pure none

def makeCallable (h : Handle) : Act U (Except Failure Handle) := do
  if ← isCallable h then .ok <$> acquire h
  else pure (.error (.of (.notCallable (← typeNameOf h))))

def intFromPeer (h : Handle) : Act U (Option Int64) := do
  match ← asInt h with
  | some v => pure (some v)
  | none =>
    raiseType s!"an integer is required (got type {← typeNameOf h})"
    pure none

/-- All values of a pass over `h`, or a failure. Should giving the view up at the end fault, the
values are on their way out already and nobody gives them back. -/
def collectObject (p : Intake U α) (h : Handle) : Act U (Except Failure (List α)) := do
  match ← View.make h with
  | .error f => pure (.error f)
  | .ok iterable =>
    let out ← holding [iterable] (View.collectSized p iterable)
    release iterable
    pure out

/-- The builtin conversion of a native type. As with `collectObject`, a value that is complete is
not given back when giving the items of its tuple up faults. -/
def fromPeer : (t : NativeType) → Handle → Act U (Option t.Value)
  | .i64, h => intFromPeer h
  | .i32, h => do
    match ← intFromPeer h with
    | none => pure none
    | some v =>
      if Int32.minValue.toInt ≤ v.toInt ∧ v.toInt ≤ Int32.maxValue.toInt then
        pure (some (Int32.ofInt v.toInt))
      else
        raise .overflowError "int too large to convert to i32"
        pure none
  | .usize, h => do
    match ← intFromPeer h with
    | none => pure none
    | some v =>
      if 0 ≤ v.toInt then pure (some (UInt64.ofNat v.toInt.toNat))
      else
        raise .overflowError "can't convert negative int to unsigned"
        pure none
  | .f64, h => do
    match ← asFloat h with
    | some x => pure (some x)
    | none =>
      raiseType s!"must be real number, not {← typeNameOf h}"
      pure none
  | .bool, h => some <$> isTruthy h
  | .text, h => do
    match ← asText h with
    | some s => pure (some s)
    | none =>
      raiseType s!"expected str, not {← typeNameOf h}"
      pure none
  | .unit, _ => pure (some ())
  | .object, h => some <$> acquire h
  | .option t, h => do
    if ← isNoneObject h then pure (some none)
    else
      match ← fromPeer t h with
      | some v => pure (some (some v))
      | none => pure none
  | .pair a b, h => do
    match ← expectTuple h 2 with
    | none => pure none
    | some items =>
      match ← holding items (fromPeer a (items.getD 0 h)) with
      | none =>
        releaseAll items
        pure none
      | some x =>
        match ← holding (a.units x ++ items) (fromPeer b (items.getD 1 h)) with
        | none =>
          releaseAll (a.units x ++ items)
          pure none
        | some y =>
          releaseAll items
          pure (some (x, y))
  | .triple a b c, h => do
    match ← expectTuple h 3 with
    | none => pure none
    | some items =>
      match ← holding items (fromPeer a (items.getD 0 h)) with
      | none =>
        releaseAll items
        pure none
      | some x =>
        match ← holding (a.units x ++ items) (fromPeer b (items.getD 1 h)) with
        | none =>
          releaseAll (a.units x ++ items)
          pure none
        | some y =>
          match ← holding (b.units y ++ a.units x ++ items) (fromPeer c (items.getD 2 h)) with
          | none =>
            releaseAll (b.units y ++ a.units x ++ items)
            pure none
          | some z =>
            releaseAll items
            pure (some (x, y, z))
  | .vec t, h => do
    reflected (← collectObject ⟨fun i => fromPeer t i, t.units, none, t.width⟩ h)
  | .view _, h => do reflected (← View.make h)
  | .callable, h => do reflected (← makeCallable h)

def builtinIntake (t : NativeType) : Intake U t.Value := ⟨fromPeer t, t.units, none, t.width⟩

end Causeway
