import Causeway.Action
/-!
# Answers

What an operation answers, and the record of everything that happened while it ran.
-/
set_option autoImplicit false

namespace Causeway.Machine

/-- An object as it was when it was looked at; without its text if that was not asked for. -/
structure ObjectView where
  handle : Handle
  typeName : String
  refcount : Nat
  text : Option String

inductive Shown where
  | null
  | bool (value : Bool)
  | integer (value : Int)
  | float (value : Binary64)
  | text (value : String)
  | some (value : Shown)
  | list (items : List Shown)
  | object (o : ObjectView)
  | view (items : List Shown)
  | brokenView (f : Failure)
  | callable (o : ObjectView)

structure Extract where
  isNone : Bool
  int : Option Int64
  float : Option Binary64
  text : Option String
  truthy : Bool
  length : Option Nat

structure CursorView where
  exhausted : Bool
  position : Nat
  value : Option Shown
  element : Option ObjectView

inductive Answer where
  | nothing
  /-- A register that an operation needs holds nothing of use to it. -/
  | skipped (name : String)
  | object (o : ObjectView)
  | objects (os : List ObjectView)
  | text (s : String)
  | texts (ss : List String)
  | flag (b : Bool)
  | count (n : Nat)
  | estimate (n : Option Nat)
  | native (v : Shown)
  | ok (v : Shown)
  | drained (vs : List (Except Failure Shown))
  | seen (vs : List Shown) (failure : Option Failure)
  | failure (f : Failure)
  | refused
  | inspection (h : Handle) (alive : Bool) (refcount : Nat) (typeName : String)
  | owner (h : Handle) (refcount : Nat) (typeName : String)
  | change (delta : Stats)
  | extract (e : Extract)
  | raised (e : Raised)
  | arity (n : Nat)
  | cursor (c : CursorView)
  | description (f : Failure)
  | settings (s : Settings)
  | malformed
  | descriptor (d : Descriptor)
  | fault (cause : Fault)

inductive SlotLabel where
  | iter
  | next
  | hint
deriving DecidableEq

def SlotLabel.name : SlotLabel → String
  | .iter => "iter"
  | .next => "next"
  | .hint => "hint"

inductive Entry where
  /-- An operation of a script: its answer, the error pending afterwards, the accounts, and what
  happened while it ran itself. -/
  | record (answer : Answer) (pending : Option Raised) (stats : Stats) (inner : List Entry)
  | entered (function : String) (arguments : List String)
  | slot (label : SlotLabel)
  | destroyed (typeName : String) (owned : Nat)
  | deleted (value : Shown)
  | event (e : Log.Event)

end Causeway.Machine
