import Causeway.Machine.Perform
/-!
# Scripts

User code of the machine: what happens when the library enters code that was handed to it. Blocks
run their operations; functions and slots choose a step by the number of the run, run it, and yield.
-/
set_option autoImplicit false

namespace Causeway.Machine

def runOp (arguments : List Handle) : Op → Run Entry
  | .op command keep keepFailure quiet => do
    let (answer, inner) ← journaled (perform { arguments, keep, keepFailure, quiet } command)
    let w ← Act.world
    pure (.record answer w.pending w.heap.stats inner)

def runOps (arguments : List Handle) : List Op → Run Unit
  | [] => pure ()
  | op :: ops => do
    note (← runOp arguments op)
    runOps arguments ops

abbrev Yielded := Except Failure (Option Handle)

def newInt (i : Int64) : Run Yielded := do pure (.ok (some (← alloc (.int i))))

def sumInts (arguments : List Handle) : Run Yielded := do
  let ints ← arguments.mapM asInt
  newInt ((ints.filterMap id).foldl (· + ·) 0)

def sumFloats (arguments : List Handle) : Run Yielded := do
  let floats ← arguments.mapM asFloat
  pure (.ok (some (← alloc (.float ((floats.filterMap id).foldl Binary64.add (.ofInt 0))))))

def joinTexts (arguments : List Handle) : Run Yielded := do
  let texts ← arguments.mapM repr
  pure (.ok (some (← alloc (.str (";".intercalate texts)))))

def squareLessTwo (arguments : List Handle) : Run Yielded := do
  match arguments with
  | [] => pure (.ok none)
  | h :: _ =>
    match ← asFloat h with
    | some x => pure (.ok (some (← alloc (.float ((x.mul x).sub (.ofInt 2))))))
    | none => pure (.ok none)

def sumView (arguments : List Handle) : Run Yielded := do
  match checkArity "sum_iter" 1 arguments, arguments with
  | .ok (), [h] =>
    match ← View.make h with
    | .error f => pure (.error f)
    | .ok iterable =>
      let out ← holding [iterable] (View.collect (builtinIntake .i32) iterable)
      match out with
      | .error f =>
        release iterable
        pure (.error f)
      | .ok (vs : List Int32) =>
        release iterable
        newInt (vs.foldl (fun n v => n + v.toInt64) 0)
  | .error f, _ => pure (.error f)
  | .ok (), _ => pure (.ok none)

def applyFirst (arguments : List Handle) : Run Yielded := do
  match checkArity "apply" 2 arguments, arguments with
  | .ok (), [f, x] =>
    match ← fromPeer .callable f with
    | none => pure (.error (.of (.argumentConversion 0 2)))
    | some target =>
      match ← holding [target] (fromPeer .i64 x) with
      | none =>
        release target
        pure (.error (.of (.argumentConversion 1 2)))
      | some (i : Int64) =>
        let returns : Returns Client Int64 := .convert (fromPeer .i64) fun _ => []
        match ← holding [target] (Callable.call target [toPeer .i64 i] [] returns) with
        | .error f =>
          release target
          pure (.error f)
        | .ok i =>
          let result ← holding [target] (alloc (.int i))
          release target
          pure (.ok (some result))
  | .error f, _ => pure (.error f)
  | .ok (), _ => pure (.ok none)

def Formula.run (arguments : List Handle) : Formula → Run Yielded
  | .sumInt => sumInts arguments
  | .sumFloat => sumFloats arguments
  | .count => newInt (Int64.ofNat arguments.length)
  | .repr => joinTexts arguments
  | .squareMinusTwo => squareLessTwo arguments
  | .sumIter => sumView arguments
  | .apply => applyFirst arguments

def Yield.resolve (arguments : List Handle) : Yield → Run Yielded
  | .unit => do pure (.ok (some (← alloc .none)))
  | .nothing | .length _ => pure (.ok none)
  | .self => do
    match arguments with
    | h :: _ => pure (.ok (some (← acquire h)))
    | [] => pure (.ok none)
  | .new none => pure (.ok none)
  | .new (some v) => do pure (.ok (← build arguments v))
  | .register name => do
    match (← register? name).bind Holding.object? with
    | some h => pure (.ok (some (← acquire h)))
    | none => pure (.ok none)
  | .take name => Except.ok <$> takeOwned name
  | .argument i => do
    match arguments[i]? with
    | some h => pure (.ok (some (← acquire h)))
    | none => pure (.ok none)
  | .failure f => pure (.error f)
  | .kept name orElse => do
    match ← takeFailure name with
    | some f => pure (.error f)
    | none => orElse.resolve arguments
  | .formula f => f.run arguments

/-- The step of run `k`; the last step repeats. -/
def stepOf (steps : List (Step (List Op))) (k : Nat) : Step (List Op) :=
  ((steps[k]?).or steps.getLast?).getD ⟨[], .unit⟩

def nextStep (id : CodeId) (steps : List (Step (List Op))) : Run (Step (List Op)) := do
  match ← enterCode id with
  | some (_, k) => pure (stepOf steps k)
  | none => pure (stepOf steps 0)

def runSteps (id : CodeId) (name : String) (steps : List (Step (List Op)))
    (arguments : List Handle) : Run Yielded := do
  note (.entered name (← arguments.mapM repr))
  let step ← nextStep id steps
  runOps arguments step.body
  step.yield.resolve arguments

def runNativeFunction (id : CodeId) (name : String) (steps : List (Step (List Op)))
    (arity : Option Nat) (arguments : List Handle) : Run (Option Handle) := do
  let checked := match arity with
    | some n => checkArity name n arguments
    | none => .ok ()
  match checked with
  | .error f => guarded (.error f)
  | .ok () =>
    match ← runSteps id name steps arguments with
    | .ok (some h) => guarded (.ok h)
    | .ok none => guarded (.error .alreadyRaised)
    | .error f => guarded (.error f)

def guardYielded : Yielded → Run (Option Handle)
  | .ok h => pure h
  | .error f => guarded (.error f)

def runFunction (id : CodeId) (name : String) (steps : List (Step (List Op))) (native : Bool)
    (arity : Option Nat) (arguments : List Handle) : Run (Option Handle) := do
  if native then runNativeFunction id name steps arity arguments
  else do guardYielded (← runSteps id name steps arguments)

def runSlotStep (id : CodeId) (label : SlotLabel) (script : SlotScript (List Op)) (obj : Handle) :
    Run (Option (Step (List Op))) := do
  let run (step : Step (List Op)) : Run Unit := do
    note (.slot label)
    runOps [obj] step.body
  let step ← withState obj .scripted (fun _ => []) fun (owns : List Handle) => do
    let step ← nextStep id script.steps
    if script.hold then holding owns (run step)
    pure (owns, step)
  match step with
  | some step =>
    if !script.hold then run step
    pure (some step)
  | none => pure none

def runSlot (id : CodeId) (label : SlotLabel) (script : SlotScript (List Op)) (obj : Handle) :
    Run (Option Handle) := do
  match ← runSlotStep id label script obj with
  | some step => do guardYielded (← step.yield.resolve [obj])
  | none => pure none

def runHint (id : CodeId) (label : SlotLabel) (script : SlotScript (List Op)) (obj : Handle) :
    Run (Option Nat) := do
  match ← runSlotStep id label script obj with
  | some ⟨_, .length n⟩ => pure (some n)
  | _ => pure none

def runDealloc (name : String) (ops : List Op) (units : List Handle) : Run Unit := do
  note (.destroyed name units.length)
  lending units do
    runOps [] ops
    Act.emit (.stateDropped StateKind.scripted.path)

def enterCall (id : CodeId) (arguments : List Handle) : Run (Option Handle) := do
  match ← codeAt id with
  | some (.block ops) =>
    runOps arguments ops
    pure none
  | some (.function name steps native arity) => runFunction id name steps native arity arguments
  | _ => pure none

def enterSlot (id : CodeId) (obj : Handle) : Run (Option Handle) := do
  match ← codeAt id with
  | some (.slot label script) => runSlot id label script obj
  | _ => pure none

def enterHint (id : CodeId) (obj : Handle) : Run (Option Nat) := do
  match ← codeAt id with
  | some (.slot label script) => runHint id label script obj
  | _ => pure none

def enterDealloc (id : CodeId) (units : List Handle) : Run Unit := do
  match ← codeAt id with
  | some (.dealloc name ops) => runDealloc name ops units
  | _ => releaseAll units

def enterConverter (id : CodeId) (t : NativeType) (v : t.Value) : Run (Option Handle) :=
  hooked id [] (fun h => [h]) (toPeer t v)

/-- What the client does wherever the library enters its code. -/
def userCode (env : Env Client) : Hooks Client where
  call id arguments w := enterCall id arguments env w
  slot id obj w := enterSlot id obj env w
  measure id obj w := enterHint id obj env w
  destroy id units w := enterDealloc id units env w
  toPeer id t v w := enterConverter id t v env w

end Causeway.Machine
