import Causeway.Machine.Passes
import Causeway.Config.Files
/-!
# Operations on callables, failures and settings
-/
set_option autoImplicit false

namespace Causeway.Machine

open Causeway.Machine.Frame

def installParams (params : List (NativeType × Converter (List Op))) :
    Run (List (NativeType × Option CodeId)) :=
  params.mapM fun (t, convert) => do pure (t, ← installConverter convert)

def performCallable (fr : Frame) (h : Handle) (params : List (NativeType × Converter (List Op)))
    (returns : NativeType) (returnConvert : Converter (List Op)) (void : Bool) : Run Answer := do
  let params ← installParams params
  let convert ← installConverter returnConvert
  match ← makeCallable h with
  | .error f => fr.yieldFailure f
  | .ok target =>
    let share ← newShare
    keep fr.keep (.callable share { target, params, returns, convert, void })
    pure (.arity params.length)

def performCallableClone (fr : Frame) (c : HeldCallable) : Run Answer := do
  let target ← acquire c.target
  let share ← newShare
  keep fr.keep (.callable share { c with target })
  pure .nothing

def HeldCallable.dump (c : HeldCallable) : String :=
  recordText "ForeignCallable"
    [("callable", c.target.ownerText), ("arity", toString c.params.length)]

structure Outgoing where
  type : NativeType
  value : type.Value
  convert : Option CodeId

namespace Outgoing

def units (a : Outgoing) : List Handle := a.type.units a.value

def run (a : Outgoing) : Run (Option Handle) := convertOut a.convert a.type a.value

end Outgoing

def readArguments (arguments : List Handle) (done : List Outgoing) :
    List (NativeType × Option CodeId) → List Term → Run (Option (List Outgoing))
  | [], _ => pure (some done)
  | (t, convert) :: params, vs => do
    match ← holding (done.flatMap Outgoing.units) (readValue arguments t (vs.headD .null)) with
    | some v => readArguments arguments (done ++ [⟨t, v, convert⟩]) params vs.tail
    | none =>
      releaseAll (done.flatMap Outgoing.units)
      pure none

def callWith (fr : Frame) (c : HeldCallable) (arguments : List Outgoing) (t : NativeType)
    (returns : Returns Client t.Value) : Run Answer := do
  match ← Callable.call c.target (arguments.map Outgoing.run) (arguments.flatMap Outgoing.units)
      returns with
  | .ok v => fr.yieldNative t v
  | .error f => fr.yieldFailure f

def performInvokeCallable (fr : Frame) (c : HeldCallable) (arguments : List Term) : Run Answer := do
  match ← readArguments fr.arguments [] c.params arguments with
  | none => pure .nothing
  | some arguments =>
    if c.void then callWith fr c arguments .unit (.discard ())
    else
      let returns := Returns.convert (convertIn c.convert c.returns) c.returns.units
      callWith fr c arguments c.returns returns

def performReflect : FailureSource → Run Answer
  | .written f => do
    f.reflect
    pure .nothing
  | .register name => do
    match ← takeFailure name with
    | some f =>
      f.reflect
      pure .nothing
    | none => pure (.skipped name)

def performGuardValue (fr : Frame) (v : Term) : Run Answer := do
  let h ← match ← build fr.arguments v with
    | some h => pure h
    | none => alloc .none
  fr.yieldObject (← guarded (.ok h))

def applySettings (s : Settings) : Run Unit := fun _ w => .done () { w with settings := s }

def performApply (document : String) : Run Answer := do
  match Config.ofDocument document with
  | .ok c =>
    applySettings c.settings
    pure (.settings c.settings)
  | .error _ => pure .malformed

end Causeway.Machine
