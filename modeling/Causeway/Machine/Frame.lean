import Causeway.Machine.Reading
/-!
# Frames

What surrounds a command: the script it belongs to, and where its yield and its failure are to be
kept.
-/
set_option autoImplicit false

namespace Causeway.Machine

structure Frame where
  /-- The borrowed arguments of the script. -/
  arguments : List Handle
  keep : Option String
  keepFailure : Option String
  /-- Objects are described without their text. -/
  quiet : Bool

namespace Frame

variable {α : Type}

def yieldObject (fr : Frame) : Option Handle → Run Answer
  | none => pure .nothing
  | some h => do
    let o ← holding [h] (viewObject fr.quiet h)
    Machine.keep fr.keep (.owned h)
    pure (.object o)

def yieldNative (fr : Frame) (t : NativeType) (v : t.Value) : Run Answer := do
  let shown ← holding (t.units v) (showValue t v)
  let share ← newShare
  Machine.keep fr.keep (.native share t v)
  pure (.ok shown)

def yieldFailure (fr : Frame) (f : Failure) : Run Answer := do
  match fr.keepFailure with
  | some name => store name (.failure f)
  | none => pure ()
  pure (.failure f)

def withObject (fr : Frame) (name : String) (f : Handle → Run Answer) : Run Answer := do
  match ← objectNamed fr.arguments name with
  | some h => f h
  | none => pure (.skipped name)

def withOwner (name : String) (f : Handle → Run Answer) : Run Answer := do
  match ← register? name with
  | some (.owned h) => f h
  | _ => pure (.skipped name)

def withView (name : String) (f : HeldView → Run Answer) : Run Answer := do
  match ← register? name with
  | some (.view share v) => whileUsing share (f v)
  | _ => pure (.skipped name)

def withCallable (name : String) (f : HeldCallable → Run Answer) : Run Answer := do
  match ← register? name with
  | some (.callable share c) => whileUsing share (f c)
  | _ => pure (.skipped name)

/-- Works on the iterator of a register, which is away from it meanwhile. Should the work fault, the
iterator is for the work to give up. -/
def withCursor (name : String) (f : HeldCursor → Run (HeldCursor × Answer)) : Run Answer := do
  match ← register? name with
  | some (.cursor c) =>
    emptyRegister name
    let (c, answer) ← f c
    store name (.cursor c)
    pure answer
  | _ => pure (.skipped name)

def besideCursor (c : HeldCursor) (act : Run α) : Run α := act.onFault (Holding.cursor c).drop

end Frame

end Causeway.Machine
