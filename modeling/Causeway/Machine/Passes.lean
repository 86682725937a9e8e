import Causeway.Machine.Frame
/-!
# Operations on views and iterators
-/
set_option autoImplicit false

namespace Causeway.Machine

open Causeway.Machine.Frame

def keepView (fr : Frame) (h : Handle) (t : NativeType) (convert deleter : Option CodeId) :
    Run Answer := do
  match ← View.make h with
  | .error f => fr.yieldFailure f
  | .ok iterable =>
    let share ← newShare
    keep fr.keep (.view share { iterable, elem := t, convert, deleter })
    pure (.text "view")

def performView (fr : Frame) (h : Handle) (t : NativeType) (convert : Converter (List Op))
    (deleter : Option (List Op)) : Run Answer := do
  let convert ← installConverter convert
  let deleter ← match deleter with
    | some body => some <$> install (.block body)
    | none => pure none
  keepView fr h t convert deleter

def performViewClone (fr : Frame) (v : HeldView) : Run Answer := do
  let iterable ← acquire v.iterable
  let share ← newShare
  keep fr.keep (.view share { v with iterable })
  pure .nothing

def HeldView.dump (v : HeldView) : String :=
  recordText "ForeignIterableView"
    [("iterable", v.iterable.ownerText), ("deleter", toString v.deleter.isSome)]

def yieldCollected (fr : Frame) (t : NativeType) : Except Failure (List t.Value) → Run Answer
  | .ok vs => fr.yieldNative (.vec t) vs
  | .error f => fr.yieldFailure f

def performCollect (fr : Frame) (v : HeldView) (into : Bool) : Run Answer := do
  let out ← if into then View.collect v.intake v.iterable else View.collectSized v.intake v.iterable
  yieldCollected fr v.elem out

def performForEach (fr : Frame) (v : HeldView) (body : List Op) : Run Answer := do
  let block ← install (.block body)
  let visit (seen : List Shown) (x : v.elem.Value) : Run (List Shown) := do
    let shown ← showValue v.elem x
    runBlock block fr.arguments
    pure (seen ++ [shown])
  match ← View.tryForEach v.intake visit v.iterable [] with
  | (.ok (), seen) => pure (.seen seen none)
  | (.error f, seen) =>
    let _ ← fr.yieldFailure f
    pure (.seen seen (some f))

def performBegin (fr : Frame) (v : HeldView) : Run Answer := do
  match ← View.begin v.intake v.iterable with
  | .error f => fr.yieldFailure f
  | .ok cursor =>
    keep fr.keep (.cursor { elem := v.elem, convert := v.convert, deleter := v.deleter, cursor })
    pure (.text "iterator")

def answerCursor (quiet : Bool) (c : HeldCursor) (value : Option Shown) :
    Run (HeldCursor × Answer) := do
  let element ← match c.cursor.element? with
    | some h => some <$> viewObject quiet h
    | none => pure none
  let view := { exhausted := c.cursor.isExhausted, position := c.cursor.position, value, element }
  pure (c, .cursor view)

def performLook (fr : Frame) (c : HeldCursor) : Run (HeldCursor × Answer) := besideCursor c do
  let value ← match c.cursor.get? with
    | some v => some <$> showValue c.elem v
    | none => pure none
  answerCursor fr.quiet c value

def HeldCursor.next (c : HeldCursor) : Run (HeldCursor × Option (Except Failure c.elem.Value)) := do
  let (cursor, out) ← holding [c.cursor.iterator] (c.cursor.next c.intake)
  pure ({ c with cursor }, out)

def performAdvance (fr : Frame) (c : HeldCursor) : Run (HeldCursor × Answer) := do
  let (cursor, failure) ← holding [c.cursor.iterator] (c.cursor.advance c.intake)
  let c : HeldCursor := { c with cursor }
  match failure with
  | none => pure (c, .text "advanced")
  | some f => do pure (c, ← besideCursor c (fr.yieldFailure f))

def performNext (fr : Frame) (c : HeldCursor) : Run (HeldCursor × Answer) := do
  match ← c.next with
  | (c, none) => pure (c, .text "end")
  | (rest, some (.error f)) => do pure (rest, ← besideCursor rest (fr.yieldFailure f))
  | (rest, some (.ok v)) => do pure (rest, ← besideCursor rest (fr.yieldNative c.elem v))

def performDrainCursor (fr : Frame) (c : HeldCursor) : Run (HeldCursor × Answer) :=
  Act.loop
    (fun ((c, out) : HeldCursor × List (Except Failure Shown)) => do
      match ← c.next with
      | (rest, none) => pure (.inr (rest, .drained out))
      | (rest, some (.error f)) => do
        let _ ← besideCursor rest (fr.yieldFailure f)
        pure (.inl (rest, out ++ [.error f]))
      | (rest, some (.ok v)) => do
        let shown ← besideCursor rest (lending (c.elem.units v) (showValue c.elem v))
        pure (.inl (rest, out ++ [.ok shown])))
    (c, [])

def HeldCursor.dump (c : HeldCursor) : String :=
  recordText "ForeignIterator" [
    ("iterator", c.cursor.iterator.ownerText),
    ("position", toString c.cursor.position),
    ("fused", toString c.cursor.fused),
    ("pending", match c.cursor.pending with
      | some f => s!"Some({f.dump})"
      | none => "None")]

end Causeway.Machine
