import Causeway.Text.Quoted
/-!
# Errors and failures

An error is what the peer's indicator holds: at most one is pending at a time. A failure is what
native callers see. It either describes itself, or says only that the diagnostic is already in the
error indicator and has to reach the peer untouched.
-/
set_option autoImplicit false

namespace Causeway

inductive ExceptionKind where
  | typeError
  | valueError
  | runtimeError
  | stopIteration
  | overflowError
  | zeroDivisionError
deriving DecidableEq, Inhabited

def ExceptionKind.name : ExceptionKind → String
  | .typeError => "TypeError"
  | .valueError => "ValueError"
  | .runtimeError => "RuntimeError"
  | .stopIteration => "StopIteration"
  | .overflowError => "OverflowError"
  | .zeroDivisionError => "ZeroDivisionError"

structure Raised where
  kind : ExceptionKind
  message : String
deriving DecidableEq, Inhabited

def Raised.text (r : Raised) : String := r.kind.name ++ ": " ++ r.message

inductive FailureKind where
  | elementConversion (index : Nat)
  | argumentConversion (position arity : Nat)
  | resultConversion
  | argumentCount (function : String) (expected got : Nat)
  | notIterable (typeName : String)
  | notCallable (typeName : String)
  /-- The peer broke a protocol, whatever the conversions did. -/
  | protocol (operation message : String)
  | alreadyRaised
deriving DecidableEq, Inhabited

namespace FailureKind

def name : FailureKind → String
  | elementConversion _ => "ElementConversion"
  | argumentConversion _ _ => "ArgumentConversion"
  | resultConversion => "ResultConversion"
  | argumentCount _ _ _ => "ArgumentCount"
  | notIterable _ => "NotIterable"
  | notCallable _ => "NotCallable"
  | protocol _ _ => "Protocol"
  | alreadyRaised => "AlreadyRaised"

def message : FailureKind → String
  | elementConversion i => s!"bad element in iterable (index {i})"
  | argumentConversion p n => s!"could not convert argument {p} of {n}"
  | resultConversion => "could not convert call result"
  | argumentCount f expected got => s!"{f}() takes {expected} arguments ({got} given)"
  | notIterable t => s!"expected an iterable, not {t}"
  | notCallable t => s!"expected a callable object, not {t}"
  | protocol operation message => s!"{operation}: {message}"
  | alreadyRaised => "error already raised in peer runtime"

def exception? : FailureKind → Option ExceptionKind
  | elementConversion _ | argumentConversion _ _ | resultConversion | argumentCount _ _ _
  | notIterable _ | notCallable _ => some .typeError
  | protocol _ _ => some .runtimeError
  | alreadyRaised => none

def isConversion : FailureKind → Bool
  | elementConversion _ | argumentConversion _ _ | resultConversion => true
  | _ => false

def fields : FailureKind → List (String × String)
  | elementConversion i => [("index", toString i)]
  | argumentConversion p n => [("position", toString p), ("arity", toString n)]
  | argumentCount f expected got =>
    [("function", Text.quote f), ("expected", toString expected), ("got", toString got)]
  | notIterable t | notCallable t => [("type_name", Text.quote t)]
  | protocol operation message =>
    [("operation", Text.quote operation), ("message", Text.quote message)]
  | resultConversion | alreadyRaised => []

end FailureKind

structure Failure where
  kind : FailureKind
  context : Option String
deriving DecidableEq, Inhabited

def recordText (name : String) (fields : List (String × String)) : String :=
  match fields with
  | [] => name
  | _ => name ++ " \x7b " ++ ", ".intercalate (fields.map fun (k, v) => k ++ ": " ++ v) ++ " \x7d"

namespace Failure

def of (kind : FailureKind) : Failure := ⟨kind, none⟩

def alreadyRaised : Failure := of .alreadyRaised

def message (f : Failure) : String :=
  match f.context with
  | some context => s!"{f.kind.message} ({context})"
  | none => f.kind.message

def dump (f : Failure) : String :=
  recordText "BridgeError" [
    ("kind", recordText f.kind.name f.kind.fields),
    ("context", match f.context with
      | some context => s!"Some({Text.quote context})"
      | none => "None")]

end Failure

end Causeway
