import Causeway.Native.Object
/-!
# Peer protocols

Iteration and calls as the peer knows them. An operation that yields an object yields a new unit on
it; no object means an error is pending, except that `iterNext` says the end by no object and a
clear indicator.
-/
set_option autoImplicit false

namespace Causeway

variable {U α : Type}

def getIter (h : Handle) : Act U (Option Handle) := do
  match ← Act.heap (·.payload? h) with
  | none =>
    raise .runtimeError "iter() on a released object"
    pure none
  | some (.list _) | some (.tuple _) | some (.set _) | some (.str _) =>
    some <$> alloc (.iterator (← acquire h) 0)
  | some (.iterator _ _) => some <$> acquire h
  | some p =>
    match p with
    | .native { iter := some slot, .. } _ => runIterSlot slot h
    | p =>
      raiseType s!"'{p.typeName}' object is not iterable"
      pure none

inductive Step where
  | item (h : Handle) (next : Nat)
  | char (c : Char) (next : Nat)
  | stop

namespace Payload

def stepAt (p : Payload) (position : Nat) : Step :=
  match p with
  | list items | set items =>
    match items[position]? with
    | some h => .item h (position + 1)
    | Option.none => .stop
  | tuple slots =>
    match slots[position]? with
    | some (some h) => .item h (position + 1)
    | _ => .stop
  | str s =>
    match Text.charAt? s.toList position with
    | some c => .char c (position + c.utf8Size)
    | Option.none => .stop
  | _ => .stop

end Payload

def moveTo (it : Handle) (position : Nat) : Act U Unit := do
  match ← Act.heap (·.payload? it) with
  | some (.iterator seq _) =>
    Act.setPayload it (.iterator seq position)
  | _ => pure ()

def sequenceNext (it seq : Handle) (position : Nat) : Act U (Option Handle) := do
  match ((← askPayload seq fun p => p.stepAt position).getD .stop) with
  | .item h next =>
    let h ← acquire h
    moveTo it next
    pure (some h)
  | .char c next =>
    let h ← alloc (.str (String.singleton c))
    moveTo it next
    pure (some h)
  | .stop => pure none

/-- The next object of an iterator. An end that a slot raised is a plain end. -/
def iterNext (it : Handle) : Act U (Option Handle) := do
  match ← Act.heap (·.payload? it) with
  | none =>
    raise .runtimeError "next() on a released object"
    pure none
  | some (.iterator seq position) => sequenceNext it seq position
  | some p =>
    match p with
    | .native { next := some slot, .. } _ =>
      let found ← runNextSlot slot it
      if found.isNone then
        if ← Indicator.holds .stopIteration then Indicator.clear
      pure found
    | p =>
      raiseType s!"'{p.typeName}' object is not an iterator"
      pure none

/-- Whether iteration over the object would start. Leaves the indicator as it was. -/
def isIterable (h : Handle) : Act U Bool := do
  let pending ← Indicator.take
  let it ← getIter h
  releaseAll it.toList
  Indicator.clear
  Indicator.putBack pending
  pure it.isSome

def lengthHint (h : Handle) : Act U (Option Nat) := do
  match ← Act.heap (·.payload? h) with
  | some (.native d _) =>
    match d.lengthHint with
    | some slot =>
      let pending ← Indicator.take
      let hint ← runHintSlot slot h
      Indicator.clear
      Indicator.putBack pending
      pure hint
    | none => pure none
  | some p => pure p.length?
  | none => pure none

def isCallable (h : Handle) : Act U Bool := do
  pure ((← askPayload h Payload.isFunction).getD false)

def newArguments (n : Nat) : Act U Handle := alloc (.tuple (List.replicate n none))

/-- Fills a slot of an argument container with `value`, which it takes over. -/
def setArgument (container : Handle) (index : Nat) (value : Handle) : Act U Unit := do
  match ← Act.heap (·.payload? container) with
  | some (.tuple slots) =>
    match slots[index]? with
    | some previous =>
      Act.setPayload container (.tuple (slots.set index (some value)))
      releaseAll previous.toList
    | none =>
      release value
      Act.fault (.noArgumentSlot container index)
  | _ =>
    release value
    Act.fault (.noArgumentSlot container index)

def filledSlots : List (Option Handle) → (index : Nat) → Except Nat (List Handle)
  | [], _ => .ok []
  | none :: _, i => .error i
  | some h :: slots, i => (filledSlots slots (i + 1)).map (h :: ·)

/-- Calls a peer function. It yields an object exactly when the indicator is clear afterwards. -/
def invoke (callable arguments : Handle) : Act U (Option Handle) := do
  match ← Act.heap (·.payload? callable) with
  | none =>
    raise .runtimeError "call of a released object"
    pure none
  | some (.function name code) =>
    match ← Act.heap (·.payload? arguments) with
    | some (.tuple slots) =>
      match filledSlots slots 0 with
      | .error i =>
        raise .runtimeError s!"{name}() argument {i} was never set"
        pure none
      | .ok hs =>
        Act.emit (.called name hs.length)
        let result ← fun env w => env.hooks.call code hs w
        match result, ← Indicator.isSet with
        | some h, false => pure (some h)
        | none, true =>
          Act.emit (.callFailed name)
          pure none
        | none, false =>
          raise .runtimeError s!"{name}() returned no result without setting an error"
          Act.emit (.callFailed name)
          pure none
        | some stray, true =>
          release stray
          let text := match ← Indicator.take with
            | some e => e.text
            | none => ""
          raise .runtimeError s!"{name}() returned a result with an error set ({text})"
          Act.emit (.callFailed name)
          pure none
    | _ =>
      raiseType s!"{name}() argument container must be a tuple"
      pure none
  | some p =>
    raiseType s!"'{p.typeName}' object is not callable"
    pure none

end Causeway
