import Causeway.Protocol
/-!
# Cursors

One native pass over a peer iterable. A cursor keeps one element of lookahead: the peer element it
fetched last and that element converted. Both are given up before the next fetch. Failures end the
pass: afterwards the cursor reports exhaustion.
-/
set_option autoImplicit false

namespace Causeway

variable {U α : Type}

/-- How elements come in: their conversion, what a converted value owns, what is to become of a
converted value that nobody takes, and the bytes a value takes up. -/
structure Intake (U α : Type) where
  convert : Handle → Act U (Option α)
  units : α → List Handle
  deleter : Option (α → Act U Unit)
  width : Nat

def Intake.discard (p : Intake U α) (v : α) : Act U Unit :=
  match p.deleter with
  | some delete => delete v
  | none => releaseAll (p.units v)

structure Cursor (α : Type) where
  iterator : Handle
  /-- The cached element, owned as well, and its value. -/
  current : Option (Handle × α)
  /-- Index of the cached element. -/
  position : Nat
  /-- Nothing is fetched any more. -/
  fused : Bool
  /-- A failure met while looking ahead, to be reported by the next call. -/
  pending : Option Failure

namespace Cursor

def start (iterator : Handle) : Cursor α := ⟨iterator, none, 0, false, none⟩

def isExhausted (c : Cursor α) : Bool := c.current.isNone && c.pending.isNone

def get? (c : Cursor α) : Option α := c.current.map (·.2)

def element? (c : Cursor α) : Option Handle := c.current.map (·.1)

def units (valueUnits : α → List Handle) (c : Cursor α) : List Handle :=
  match c.current with
  | some (element, v) => element :: valueUnits v ++ [c.iterator]
  | none => [c.iterator]

/-- Pulls and converts the next element into the empty cache.

An error that was pending before is left alone and ends the pass, as does one that the peer raises.
A failed conversion clears the indicator and reports the index of the element. Should the fetch
fault, the iterator is still the caller's to give back. -/
def fetch (p : Intake U α) (c : Cursor α) : Act U (Cursor α × Option Failure) := do
  if c.fused then pure (c, none)
  else if ← Indicator.isSet then pure ({ c with fused := true }, some .alreadyRaised)
  else
    match ← iterNext c.iterator with
    | none =>
      if ← Indicator.isSet then pure ({ c with fused := true }, some .alreadyRaised)
      else
        Act.emit (.iterationEnded c.position)
        pure ({ c with fused := true }, none)
    | some element =>
      let out ← holding [element] (p.convert element)
      match out, ← Indicator.isSet with
      | some v, false => pure ({ c with current := some (element, v) }, none)
      | out, _ =>
        holding [element] do
          match out with
          | some v => p.discard v
          | none => pure ()
        release element
        Indicator.clear
        Act.emit (.conversionFailed .element c.position)
        pure ({ c with fused := true }, some (.of (.elementConversion c.position)))

def discardCurrent (p : Intake U α) (c : Cursor α) : Act U (Cursor α) := do
  match c.current with
  | some (element, v) =>
    holding (p.units v) (release element)
    p.discard v
  | none => pure ()
  pure { c with current := none }

def advance (p : Intake U α) (c : Cursor α) : Act U (Cursor α × Option Failure) := do
  match c.pending with
  | some f => pure ({ c with pending := none }, some f)
  | none =>
    if c.current.isNone then pure (c, none)
    else
      let c ← discardCurrent p c
      fetch p { c with position := c.position + 1 }

def next (p : Intake U α) (c : Cursor α) : Act U (Cursor α × Option (Except Failure α)) := do
  match c.pending with
  | some f => pure ({ c with pending := none }, some (.error f))
  | none =>
    match c.current with
    | none => pure (c, none)
    | some (element, v) =>
      holding (p.units v) (release element)
      let (c, failure) ← holding (p.units v)
        (fetch p { c with current := none, position := c.position + 1 })
      pure ({ c with pending := failure }, some (.ok v))

def drop (p : Intake U α) (c : Cursor α) : Act U Unit := do
  let _ ← holding [c.iterator] (discardCurrent p c)
  release c.iterator

end Cursor

end Causeway
