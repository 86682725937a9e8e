import Causeway.Reference
/-!
# The error indicator

At most one error is pending. Raising over it replaces it and warns, or faults if the settings are
strict. Looking at it and taking it leave no trace; clearing it does.
-/
set_option autoImplicit false

namespace Causeway

variable {U α : Type}

namespace Indicator

def get : Act U (Option Raised) := fun _ w => .done w.pending w

def isSet : Act U Bool := fun _ w => .done w.pending.isSome w

def holds (kind : ExceptionKind) : Act U Bool := fun _ w =>
  .done (w.pending.any (·.kind == kind)) w

/-- Puts `next` in place of what was pending, and answers that. -/
def swap (next : Option Raised) : Act U (Option Raised) := fun _ w =>
  .done w.pending { w with pending := next }

def take : Act U (Option Raised) := swap none

def raise (e : Raised) : Act U Unit := do
  Act.emit (.raised e)
  match ← swap (some e) with
  | none => pure ()
  | some previous =>
    if (← Act.settings).strictIndicator then Act.fault (.raisedOverPending previous)
    else Act.emit (.overwritten previous)

def putBack : Option Raised → Act U Unit
  | some e => raise e
  | none => pure ()

def clear : Act U Unit := do
  match ← take with
  | some e => Act.emit (.cleared e.kind)
  | none => pure ()

end Indicator

def raise (kind : ExceptionKind) (message : String) : Act U Unit := Indicator.raise ⟨kind, message⟩

def raiseType (message : String) : Act U Unit := raise .typeError message

/-- Says a failure in the peer's terms. One that was raised already stays as it is. -/
def Failure.reflect (f : Failure) : Act U Unit := do
  match f.kind.exception? with
  | some kind =>
    Indicator.clear
    raise kind f.message
  | none =>
    if ← Indicator.isSet then pure ()
    else raise .runtimeError "error reported as raised but no peer error is pending"

/-- Native code run on behalf of the peer: an object, or nothing with the indicator set. -/
def guarded : Except Failure Handle → Act U (Option Handle)
  | .ok h => pure (some h)
  | .error f => do
    f.reflect
    pure none

def checkArity (function : String) (expected : Nat) (arguments : List Handle) :
    Except Failure Unit :=
  if arguments.length = expected then .ok ()
  else .error (.of (.argumentCount function expected arguments.length))

end Causeway
