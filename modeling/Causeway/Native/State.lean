import Causeway.Native.Source
/-!
# The state of native objects

What an object implemented by native code keeps behind its slots. Each type of object has a
descriptor: its name, and for each protocol the slot that answers it, if it has one.
-/
set_option autoImplicit false

namespace Causeway

structure Adapter where
  elem : NativeType
  /-- The outward converter; the builtin one if there is none. -/
  convert : Option CodeId
  source : Source elem
  /-- What has been looked at but not handed over: nothing yet, the end, or an item. -/
  peeked : Option (Option elem.Value)
  produced : Nat

structure Collection where
  elem : NativeType
  convert : Option CodeId
  source : Source elem

inductive NativeState where
  | adapter (a : Adapter)
  | collection (c : Collection)
  /-- State of a user-defined type: the units it owns. -/
  | scripted (owns : List Handle)

inductive StateKind where
  | adapter
  | collection
  | scripted
  | text
deriving DecidableEq

namespace StateKind

def path : StateKind → String
  | adapter => "NativeIterableAdapter"
  | collection => "NativeIterable"
  | scripted => "Scripted"
  | text => NativeType.text.path

end StateKind

namespace Adapter

def start {t : NativeType} (source : Source t) (convert : Option CodeId) : Adapter where
  elem := t
  convert := convert
  source := source
  peeked := none
  produced := 0

def units (a : Adapter) : List Handle :=
  a.source.units ++ match a.peeked with
    | some (some v) => a.elem.units v
    | _ => []

def hint (a : Adapter) : Nat :=
  match a.peeked with
  | none => a.source.hint
  | some none => 0
  | some (some _) => min (a.source.hint + 1) (Nat.pow 2 64 - 1)

/-- Looks at the next item. At the end the rest of the sequence is given up: its units come third.
-/
def peek (a : Adapter) : Option a.elem.Value × Adapter × List Handle :=
  match a.peeked with
  | some v => (v, a, [])
  | none =>
    match a.source.next? with
    | some (v, rest) => (some v, { a with source := rest, peeked := some (some v) }, [])
    | none => (none, { a with source := .spent, peeked := some none }, a.source.units)

def advance (a : Adapter) : Adapter := { a with peeked := none, produced := a.produced + 1 }

end Adapter

def Collection.units (c : Collection) : List Handle := c.source.units

def StateKind.State : StateKind → Type
  | adapter => Adapter
  | collection => Collection
  | scripted => List Handle
  | text => Empty

namespace NativeState

def of : (kind : StateKind) → kind.State → NativeState
  | .adapter, a => adapter a
  | .collection, c => collection c
  | .scripted, owns => scripted owns

def get? : (kind : StateKind) → NativeState → Option kind.State
  | .adapter, adapter a => some a
  | .collection, collection c => some c
  | .scripted, scripted owns => some owns
  | _, _ => none

def kind : NativeState → StateKind
  | adapter _ => .adapter
  | collection _ => .collection
  | scripted _ => .scripted

def units : NativeState → List Handle
  | adapter a => a.units
  | collection c => c.units
  | scripted owns => owns

end NativeState

inductive IterSlot where
  /-- The object is its own iterator. -/
  | self
  /-- A fresh adapter over a copy of the collection. -/
  | fresh
  | user (code : CodeId)
deriving DecidableEq

inductive NextSlot where
  | step
  | user (code : CodeId)
deriving DecidableEq

inductive HintSlot where
  | remaining
  | user (code : CodeId)
deriving DecidableEq

inductive DeallocSlot where
  /-- The state gives up its units. -/
  | drop
  | user (code : CodeId)
deriving DecidableEq

structure Descriptor where
  name : String
  doc : String
  dealloc : DeallocSlot
  iter : Option IterSlot
  next : Option NextSlot
  lengthHint : Option HintSlot
deriving DecidableEq

namespace Descriptor

def adapter : Descriptor where
  name := "native_iterator"
  doc := "Iterator over a native range"
  dealloc := .drop
  iter := some .self
  next := some .step
  lengthHint := some .remaining

def collection : Descriptor where
  name := "native_iterable"
  doc := "Re-iterable native collection"
  dealloc := .drop
  iter := some .fresh
  next := none
  lengthHint := none

end Descriptor

end Causeway
