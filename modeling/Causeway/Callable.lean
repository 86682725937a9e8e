import Causeway.Convert.Inward
/-!
# Callables

Calls from native code into the peer. Each call has its own argument container; the container, the
arguments and the result are given back before the call returns, whatever its outcome.
-/
set_option autoImplicit false

namespace Causeway

variable {U α : Type}

inductive Returns (U α : Type) where
  | convert (convert : Handle → Act U (Option α)) (units : α → List Handle)
  /-- The result is given back unconverted. -/
  | discard (value : α)

namespace Callable

/-- Converts arguments into their slots, from slot `index` on; answers the first that fails. -/
def marshal (container : Handle) :
    (arguments : List (Act U (Option Handle))) → (index : Nat) → Act U (Option Nat)
  | [], _ => pure none
  | argument :: rest, index => do
    match ← argument, ← Indicator.isSet with
    | some h, false =>
      setArgument container index h
      marshal container rest (index + 1)
    | out, _ =>
      releaseAll out.toList
      pure (some index)

def finish (returns : Returns U α) (result : Handle) : Act U (Except Failure α) := do
  match returns with
  | .discard value =>
    release result
    pure (.ok value)
  | .convert convert units =>
    let out ← holding [result] (convert result)
    let owned := out.toList.flatMap units
    holding owned (release result)
    match out, ← Indicator.isSet with
    | some v, false => pure (.ok v)
    | _, _ =>
      Indicator.clear
      Act.emit (.conversionFailed .result 0)
      releaseAll owned
      pure (.error (.of .resultConversion))

/-- Calls a peer function with converted arguments, whose native values own `units`.

With an error pending nothing is converted or called, and the error stays. An argument or a result
that does not convert clears the indicator; a call that fails leaves the peer's error in it. -/
def call (target : Handle) (arguments : List (Act U (Option Handle))) (units : List Handle)
    (returns : Returns U α) : Act U (Except Failure α) := do
  if ← Indicator.isSet then
    releaseAll units
    pure (.error .alreadyRaised)
  else
    let container ← newArguments arguments.length
    match ← holding (container :: units) (marshal container arguments 0) with
    | some position =>
      holding units (release container)
      Indicator.clear
      Act.emit (.conversionFailed .argument position)
      releaseAll units
      pure (.error (.of (.argumentConversion position arguments.length)))
    | none =>
      holding [container] (releaseAll units)
      let result ← holding [container] (invoke target container)
      holding result.toList (release container)
      match result with
      | none => pure (.error .alreadyRaised)
      | some h => finish returns h

end Callable

end Causeway
