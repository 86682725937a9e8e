import Causeway.Machine.Frame
/-!
# Operations on objects

References, builtin values, the error indicator, and the peer's protocols.
-/
set_option autoImplicit false

namespace Causeway.Machine

open Causeway.Machine.Frame

def nestObject (kind : ContainerKind) : Nat → Handle → Run Handle
  | 0, h => pure h
  | n + 1, h => do
    let wrapped ← match kind with
      | .tuple => newTuple [h]
      | .list => alloc (.list [h])
    nestObject kind n wrapped

def performNew (fr : Frame) (v : Term) (wrap : Handle → Run Handle) : Run Answer := do
  match ← build fr.arguments v with
  | some h => do fr.yieldObject (some (← wrap h))
  | none => pure .nothing

def performDrop (name : String) : Run Answer := do
  match ← register? name with
  | some x =>
    emptyRegister name
    x.drop
    pure .nothing
  | none => pure (.skipped name)

def performRaw (fr : Frame) (h : Handle) : Run Answer := do
  match fr.keep with
  | some name => store name (.raw h)
  | none => pure ()
  pure (.text h.text)

def performIntoRaw (fr : Frame) (name : String) : Run Answer := do
  match ← takeOwned name with
  | some h => performRaw fr h
  | none => pure (.skipped name)

def performGiveBack (name : String) : Run Answer := do
  match ← takeOwned name with
  | some h =>
    release h
    pure .nothing
  | none => pure (.skipped name)

def countOf (h : Handle) : Run Answer := do pure (.count (← Act.heap (·.refcount h)))

def performInspect (h : Handle) : Run Answer := do
  let heap ← Act.heap id
  pure (.inspection h (heap.isAlive h) (heap.refcount h) (heap.typeName h))

def performInspectOwner (h : Handle) : Run Answer := do
  let heap ← Act.heap id
  pure (.owner h (heap.refcount h) (heap.typeName h))

def performMark (fr : Frame) : Run Answer := do
  let s ← stats
  match fr.keep with
  | some name => store name (.mark s)
  | none => pure ()
  pure .nothing

def performSince (name : String) : Run Answer := do
  match ← register? name with
  | some (.mark earlier) => pure (.change ((← stats).since earlier))
  | _ => pure (.skipped name)

def performExtract (h : Handle) : Run Answer := do
  let isNone ← isNoneObject h
  let int ← asInt h
  let float ← asFloat h
  let text ← asText h
  let truthy ← isTruthy h
  let length ← lengthOf h
  pure (.extract { isNone, int, float, text, truthy, length })

def answerItems (quiet : Bool) : Option (List Handle) → Run Answer
  | none => pure .nothing
  | some hs => do pure (.objects (← lending hs (hs.mapM fun h => viewObject quiet h)))

def performItems (fr : Frame) (h : Handle) (kind : ContainerKind) : Run Answer := do
  let items ← match kind with
    | .tuple => tupleItems h
    | .list => listItems h
  answerItems fr.quiet items

def performAppend (fr : Frame) (h : Handle) (v : Term) : Run Answer := do
  match ← build fr.arguments v with
  | some item => do pure (.flag (← appendItem h item))
  | none => pure .nothing

def performFetch (fr : Frame) : Run Answer := do
  match ← Indicator.take with
  | none => pure .nothing
  | some e =>
    match fr.keep with
    | some name => store name (.saved e)
    | none => pure ()
    pure (.raised e)

def performRestore (name : String) : Run Answer := do
  match ← register? name with
  | some (.saved e) =>
    emptyRegister name
    Indicator.raise e
    pure .nothing
  | _ => pure (.skipped name)

def drainTexts (it : Handle) : (most : Nat) → Run (List String)
  | 0 => pure []
  | n + 1 => do
    match ← iterNext it with
    | none => pure []
    | some h =>
      let s ← lending [h] (repr h)
      pure (s :: (← drainTexts it n))

def performSetArgument (fr : Frame) (container : Handle) (index : Nat) (v : Term) : Run Answer := do
  match ← build fr.arguments v with
  | some h =>
    setArgument container index h
    pure .nothing
  | none => pure .nothing

def setArguments (container : Handle) : (index : Nat) → List Handle → Run Unit
  | _, [] => pure ()
  | i, h :: hs => do
    holding hs (setArgument container i h)
    setArguments container (i + 1) hs

def performCall (fr : Frame) (callee : Handle) (arguments : List Term) : Run Answer := do
  match ← buildAll fr.arguments [] arguments with
  | none => pure .nothing
  | some hs =>
    let container ← newArguments hs.length
    holding [container] (setArguments container 0 hs)
    let result ← holding [container] (invoke callee container)
    holding result.toList (release container)
    fr.yieldObject result

def performFunction (fr : Frame) (name : String) (steps : List (Step (List Op))) (native : Bool)
    (arity : Option Nat) : Run Answer := do
  let code ← install (.function name steps native arity)
  fr.yieldObject (some (← alloc (.function name code)))

end Causeway.Machine
