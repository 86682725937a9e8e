import Causeway.Convert.Outward
/-!
# Native objects

Objects whose slots are native code. While a slot works on the state of its object, the state is
away from the heap: a second access meanwhile is refused, and if the object dies meanwhile the state
is disposed of when it comes back.
-/
set_option autoImplicit false

namespace Causeway

variable {U α : Type}

/-- Returns the state to its object, if that is still there and waits for it. -/
def putStateBack (obj : Handle) (s : NativeState) : Act U Bool := do
  match ← Act.heap (·.payload? obj) with
  | some (.native d none) =>
    Act.setPayload obj (.native d (some s))
    pure true
  | _ => pure false

/-- Lends the state of `obj` to `f`, which owns it until it returns it.

There is no answer, and an error is raised, when the object is gone, is not native, has its state
away already, or has a state of another type. `units` are what an answer owns. -/
def withState (obj : Handle) (kind : StateKind) (units : α → List Handle)
    (f : kind.State → Act U (kind.State × α)) : Act U (Option α) := do
  match ← Act.heap (·.payload? obj) with
  | none =>
    raise .runtimeError "access to a released object"
    pure none
  | some (.native d none) =>
    raise .runtimeError s!"{d.name} already executing"
    pure none
  | some (.native d (some s)) =>
    Act.setPayload obj (.native d none)
    match s.get? kind with
    | some typed =>
      let (typed, a) ← f typed
      let s := NativeState.of kind typed
      if !(← putStateBack obj s) then holding (units a) (disposeState d s)
      pure (some a)
    | none =>
      holding s.units (raiseType s!"descriptor '{d.name}' does not hold {kind.path}")
      if !(← putStateBack obj s) then disposeState d s
      pure none
  | some p =>
    raiseType s!"expected a native object, not {p.typeName}"
    pure none

def instantiate (d : Descriptor) (s : NativeState) : Act U Handle := alloc (.native d (some s))

namespace Adapter

/-- Converts and hands over the next item.

An error that is pending belongs to someone else: nothing is consumed. An item that does not convert
stays, and the next step tries it again. -/
def step (a : Adapter) : Act U (Adapter × Option Handle) := do
  if ← Indicator.isSet then pure (a, none)
  else
    match a.peek with
    | (none, b, left) =>
      holding b.units (releaseAll left)
      Act.emit (.sequenceEnded a.produced)
      pure (b, none)
    | (some v, b, _) =>
      let out ← holding b.units (convertOut a.convert a.elem v)
      match out, ← Indicator.isSet with
      | some h, false =>
        let rest := b.advance
        holding (h :: rest.units) (releaseAll (a.elem.units v))
        pure (rest, some h)
      | out, _ =>
        holding b.units do
          releaseAll out.toList
          Indicator.clear
          Act.emit (.conversionFailed .element a.produced)
          raiseType "bad element in iterable"
        pure (b, none)

end Adapter

def adapterDescriptor : Act U Descriptor := do
  Act.emit (.typeDescribed Descriptor.adapter.name StateKind.adapter.path)
  pure .adapter

def collectionDescriptor : Act U Descriptor := do
  Act.emit (.typeDescribed Descriptor.collection.name StateKind.collection.path)
  pure .collection

def newAdapter {t : NativeType} (source : Source t) (convert : Option CodeId) : Act U Handle := do
  instantiate (← adapterDescriptor) (.adapter (.start source convert))

def newCollection {t : NativeType} (source : Source t) (convert : Option CodeId) :
    Act U Handle := do
  instantiate (← collectionDescriptor) (.collection ⟨t, convert, source⟩)

def copyAll {α : Type} (units : α → List Handle) (copy : α → Act U Unit) (made : List Handle) :
    List α → Act U Unit
  | [] => pure ()
  | v :: vs => do
    holding made (copy v)
    copyAll units copy (made ++ units v) vs

def copyValue : (t : NativeType) → t.Value → Act U Unit
  | .object, h | .view _, h | .callable, h => do let _ ← acquire h
  | .option _, none => pure ()
  | .option t, some v => copyValue t v
  | .pair a b, (x, y) => do
    copyValue a x
    holding (a.units x) (copyValue b y)
  | .triple a b c, (x, y, z) => do
    copyValue a x
    holding (a.units x) (copyValue b y)
    holding (b.units y ++ a.units x) (copyValue c z)
  | .vec t, vs => copyAll t.units (copyValue t) [] vs
  | _, _ => pure ()

def copyCollection (c : Collection) : Act U Collection := do
  copyAll c.elem.units (copyValue c.elem) [] c.source.stored
  pure c

def runIterSlot (slot : IterSlot) (obj : Handle) : Act U (Option Handle) :=
  match slot with
  | .self => some <$> acquire obj
  | .fresh => do
    let copied ← withState obj .collection Collection.units fun (c : Collection) => do
      let copy ← holding c.units (copyCollection c)
      pure (c, copy)
    match copied with
    | some c => some <$> newAdapter c.source c.convert
    | none => pure none
  | .user code => fun env w => env.hooks.slot code obj w

def runNextSlot (slot : NextSlot) (obj : Handle) : Act U (Option Handle) :=
  match slot with
  | .step => do
    pure ((← withState obj .adapter Option.toList Adapter.step).bind id)
  | .user code => fun env w => env.hooks.slot code obj w

def runHintSlot (slot : HintSlot) (obj : Handle) : Act U (Option Nat) :=
  match slot with
  | .remaining =>
    withState obj .adapter (fun _ => []) fun (a : Adapter) => pure (a, a.hint)
  | .user code => fun env w => env.hooks.measure code obj w

end Causeway
