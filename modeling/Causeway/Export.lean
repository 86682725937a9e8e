import Causeway.Native.Object
/-!
# Export

Handing a native sequence to the peer, either on demand or as a finished container.
-/
set_option autoImplicit false

namespace Causeway

variable {U : Type}

inductive OutputMode where
  | onDemand
  | list
  | tuple
  | set
  /-- Nothing in the peer changes a set, so a frozen one is the same thing. -/
  | frozenSet
deriving DecidableEq

def gather (mode : OutputMode) (items : List Handle) : Act U (Except Failure Handle) := do
  match mode with
  | .tuple => .ok <$> newTuple items
  | .set | .frozenSet =>
    match ← newSet items with
    | some h => pure (.ok h)
    | none => pure (.error .alreadyRaised)
  | .list | .onDemand => .ok <$> alloc (.list items)

def exportSource {t : NativeType} (source : Source t) (convert : Option CodeId)
    (mode : OutputMode) : Act U (Except Failure Handle) := do
  match mode with
  | .onDemand => .ok <$> newAdapter source convert
  | mode =>
    match ← convertAll t.units (convertOut convert t) source with
    | .error f => pure (.error f)
    | .ok items => gather mode items

end Causeway
