import Causeway.Machine.Objects
/-!
# Operations on native objects and values

Objects with scripted slots, native sequences, and conversions.
-/
set_option autoImplicit false

namespace Causeway.Machine

open Causeway.Machine.Frame

/-- Moves owned objects out of registers, behind those `taken` already: all of them, or the name of
the first that is not there. -/
def takeAll (taken : List Handle) : List String → Run (Except String (List Handle))
  | [] => pure (.ok taken)
  | name :: names => do
    match ← takeOwned name with
    | some h => takeAll (taken ++ [h]) names
    | none =>
      releaseAll taken
      pure (.error name)

def installSlot (label : SlotLabel) : Option (SlotScript (List Op)) → Run (Option CodeId)
  | none => pure none
  | some script => some <$> install (.slot label script)

def performNativeObject (fr : Frame) (name : String)
    (iter next hint : Option (SlotScript (List Op))) (owns : List String) (onDealloc : List Op) :
    Run Answer := do
  match ← takeAll [] owns with
  | .error missing => pure (.skipped missing)
  | .ok units =>
    let iter ← installSlot .iter iter
    let next ← installSlot .next next
    let hint ← installSlot .hint hint
    let dealloc ← install (.dealloc name onDealloc)
    let d : Descriptor :=
      { name, doc := "", dealloc := .user dealloc, iter := iter.map .user, next := next.map .user,
        lengthHint := hint.map .user }
    fr.yieldObject (some (← instantiate d (.scripted units)))

def performWithState (h : Handle) (kind : StateKind) (body : List Op) : Run Answer := do
  let block ← install (.block body)
  let done ← withState h kind (fun _ => []) fun s => do
    holding (NativeState.of kind s).units (runBlock block [h])
    pure (s, ())
  pure (.flag done.isSome)

def performSource (fr : Frame) {t : NativeType} (source : Source t) (mode : NativeMode)
    (convert : Option CodeId) : Run Answer := do
  match mode with
  | .adapter => do fr.yieldObject (some (← newAdapter source convert))
  | .iterable => do fr.yieldObject (some (← newCollection source convert))
  | .exported mode =>
    match ← exportSource source convert mode with
    | .ok h => fr.yieldObject (some h)
    | .error f => fr.yieldFailure f

def SourceForm.source {t : NativeType} (items : List t.Value) : SourceForm → NativeMode → Source t
  | _, .iterable | .counted, _ => .listed items true
  | .uncounted, _ => .listed items false
  | .gapped gap, _ => .gapped gap items

def performNative (fr : Frame) (t : NativeType) (items : List Term) (form : SourceForm)
    (mode : NativeMode) (convert : Converter (List Op)) : Run Answer := do
  match ← readAll t.units (readValue fr.arguments t) [] items with
  | none => pure .nothing
  | some items =>
    let code ← installConverter convert
    performSource fr (form.source items mode) mode code

def performRange (fr : Frame) (low high : Int) (inclusive : Bool) (mode : NativeMode)
    (convert : Converter (List Op)) : Run Answer := do
  let code ← installConverter convert
  let stop := if inclusive ∧ mode ≠ .iterable then high + 1 else high
  performSource fr (.span low stop) mode code

def performFromPeer (fr : Frame) (h : Handle) (t : NativeType) (convert : Converter (List Op)) :
    Run Answer := do
  let code ← installConverter convert
  match ← convertIn code t h with
  | some v => fr.yieldNative t v
  | none => pure .refused

def performToPeer (fr : Frame) (t : NativeType) (v : Term) (convert : Converter (List Op)) :
    Run Answer := do
  match ← readValue fr.arguments t v with
  | none => pure .nothing
  | some v =>
    let code ← installConverter convert
    lending (t.units v) do
      match ← convertOut code t v with
      | some h => fr.yieldObject (some h)
      | none => pure .refused

def performShow (name : String) : Run Answer := do
  match ← register? name with
  | some (.native share t v) => do pure (.native (← whileUsing share (showValue t v)))
  | _ => pure (.skipped name)

end Causeway.Machine
