import Causeway.Failure
import Causeway.Export
/-!
# Operations

The language in which the library is driven: operations on named registers, and the scripts that
user code runs. A script is a list of operations again, so user code may re-enter the library
anywhere.
-/
set_option autoImplicit false

namespace Causeway.Machine

/-- A written value. It stands for a peer object or for a native value, depending on who reads it.
-/
inductive Term where
  | null
  | bool (value : Bool)
  | int (value : Int)
  | float (value : Binary64)
  | text (value : String)
  | list (items : List Term)
  | tuple (items : List Term)
  | set (items : List Term)
  /-- A new unit on the object in a register. -/
  | ref (register : String)
  /-- The iterator of a value. -/
  | iter (of : Term)
  /-- An option that is there. -/
  | some (value : Term)
deriving Inhabited

inductive Formula where
  | sumInt
  | sumFloat
  | count
  | repr
  | squareMinusTwo
  | sumIter
  | apply
deriving DecidableEq

inductive Yield where
  | unit
  | nothing
  | self
  | new (v : Option Term)
  | register (name : String)
  | take (name : String)
  | argument (index : Nat)
  | failure (f : Failure)
  /-- The failure kept in a register, or else something else. -/
  | kept (name : String) (orElse : Yield)
  | formula (f : Formula)
  | length (n : Nat)
deriving Inhabited

structure Step (β : Type) where
  body : β
  yield : Yield

/-- The script of a slot; `hold` says that it runs while the state is lent. -/
structure SlotScript (β : Type) where
  steps : List (Step β)
  hold : Bool

inductive HookMode where
  | convert
  /-- It does not convert at all. -/
  | refuse
  /-- It converts and then gives the value up. -/
  | fail
deriving DecidableEq, Inhabited

structure Hook (β : Type) where
  before : β
  after : β
  mode : HookMode
deriving Inhabited

inductive Converter (β : Type) where
  | builtin
  /-- The builtin conversion between hooks, which are found by the number of the call, or under `*`
  for every other call. -/
  | custom (hooks : List (String × Hook β))

inductive ContainerKind where
  | tuple
  | list
deriving DecidableEq

inductive NativeMode where
  | adapter
  | iterable
  | exported (mode : OutputMode)
deriving DecidableEq

inductive SourceForm where
  | counted
  | uncounted
  | gapped (gap : Nat)
deriving DecidableEq

inductive FailureSource where
  | written (f : Failure)
  | register (name : String)

inductive CallableMode where
  | builtin
  | custom
  | void
deriving DecidableEq

/-- The operations; `β` is what a nested script is made of. -/
inductive Command (β : Type) where
  -- references
  | new (v : Term)
  | nest (v : Term) (depth : Nat) (kind : ContainerKind)
  | drop (reg : String)
  | clone (obj : String)
  | giveBack (obj : String)
  | getSelf (obj : String)
  | raw (obj : String)
  | intoRaw (obj : String)
  | fromRaw (obj : String)
  | acquire (obj : String)
  | release (obj : String)
  | inspect (obj : String)
  | inspectOwner (obj : String)
  | same (obj other : String)
  | mark
  | since (mark : String)
  | audit
  | cleanup
  -- builtins
  | repr (obj : String)
  | extract (obj : String)
  | items (obj : String) (kind : ContainerKind)
  | append (obj : String) (v : Term)
  -- indicator
  | raise (kind : ExceptionKind) (message : String)
  | clear
  | fetch
  | restore (reg : String)
  | isSet
  | isKind (kind : ExceptionKind)
  -- protocols
  | getIter (obj : String)
  | next (obj : String)
  | drain (obj : String) (most : Nat)
  | isIterable (obj : String)
  | isCallable (obj : String)
  | lengthHint (obj : String)
  | newArguments (n : Nat)
  | setArgument (obj : String) (index : Nat) (v : Term)
  | invoke (obj arguments : String)
  | call (obj : String) (arguments : List Term)
  | function (name : String) (steps : List (Step β)) (native : Bool) (arity : Option Nat)
  -- native objects
  | nativeObject (name : String) (iter next hint : Option (SlotScript β)) (owns : List String)
      (onDealloc : β)
  | withState (obj : String) (kind : StateKind) (body : β)
  | native (type : NativeType) (items : List Term) (form : SourceForm) (mode : NativeMode)
      (convert : Converter β)
  | range (low high : Int) (inclusive : Bool) (mode : NativeMode) (convert : Converter β)
  | descriptor (mode : NativeMode)
  -- conversions
  | fromPeer (obj : String) (type : NativeType) (convert : Converter β)
  | toPeer (type : NativeType) (v : Term) (convert : Converter β)
  | «show» (reg : String)
  | converterText (type : NativeType)
  -- views
  | view (obj : String) (type : NativeType) (convert : Converter β) (deleter : Option β)
  | viewClone (view : String)
  | viewText (view : String)
  | collect (view : String) (into : Bool)
  | forEach (view : String) (body : β)
  | begin (view : String)
  | it (it : String)
  | advance (it : String)
  | itNext (it : String)
  | itDrain (it : String)
  | itText (it : String)
  -- callables
  | callable (obj : String) (params : List (NativeType × Converter β)) (returns : NativeType)
      (returnConvert : Converter β) (mode : CallableMode)
  | invokeCallable (fn : String) (arguments : List Term)
  | callableClone (fn : String)
  | callableText (fn : String)
  -- boundary and settings
  | describe (failure : Failure)
  | reflect (failure : FailureSource)
  | guardFailure (failure : Failure)
  | guardValue (v : Term)
  | apply (document : String)

/-- A command, where to keep what it yields, where to keep its failure, and whether an object it
yields is described without its text. -/
inductive Op where
  | op (command : Command (List Op)) (keep keepFailure : Option String) (quiet : Bool)

instance {β : Type} : Inhabited (Command β) := ⟨.mark⟩

instance {β : Type} : Inhabited (Converter β) := ⟨.builtin⟩

instance : Inhabited Op := ⟨.op default none none false⟩

end Causeway.Machine
