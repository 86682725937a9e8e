import Causeway.Machine.Op
import Causeway.Machine.Answer
import Causeway.Callable
/-!
# The client

What drives the library keeps: registers, the code it has handed to the library, and a journal. The
functions, slots and converters it hands over name registers and capture nothing, so that all units
outside the heap are in registers or with the operations at work.
-/
set_option autoImplicit false

namespace Causeway.Machine

structure HeldView where
  iterable : Handle
  elem : NativeType
  convert : Option CodeId
  deleter : Option CodeId

structure HeldCursor where
  elem : NativeType
  convert : Option CodeId
  deleter : Option CodeId
  cursor : Cursor elem.Value

structure HeldCallable where
  target : Handle
  params : List (NativeType × Option CodeId)
  returns : NativeType
  convert : Option CodeId
  void : Bool

/-- What a register can hold. Views, callables and native values are shared between their register
and the operations at work on them, and are told apart by number. -/
inductive Holding where
  | owned (h : Handle)
  /-- A handle without a unit. -/
  | raw (h : Handle)
  | saved (e : Raised)
  | failure (f : Failure)
  | view (share : Nat) (v : HeldView)
  | cursor (c : HeldCursor)
  | callable (share : Nat) (c : HeldCallable)
  | native (share : Nat) (t : NativeType) (v : t.Value)
  | mark (s : Stats)

namespace Holding

def units : Holding → List Handle
  | owned h => [h]
  | view _ v => [v.iterable]
  | cursor c => c.cursor.units c.elem.units
  | callable _ c => [c.target]
  | native _ t v => t.units v
  | raw _ | saved _ | failure _ | mark _ => []

def object? : Holding → Option Handle
  | owned h | raw h => some h
  | view _ v => some v.iterable
  | callable _ c => some c.target
  | _ => none

def share? : Holding → Option Nat
  | view n _ | callable n _ | native n _ _ => some n
  | _ => none

end Holding

abbrev Registers := List (String × Holding)

namespace Registers

def put (name : String) (x : Holding) : Registers → Registers
  | [] => [(name, x)]
  | (other, y) :: rest =>
    if name = other then (name, x) :: rest
    else if name < other then (name, x) :: (other, y) :: rest
    else (other, y) :: put name x rest

def erase (name : String) (rs : Registers) : Registers := rs.filter fun r => r.1 != name

def units (rs : Registers) : List Handle := rs.flatMap fun r => r.2.units

end Registers

inductive Code where
  | block (ops : List Op)
  | function (name : String) (steps : List (Step (List Op))) (native : Bool) (arity : Option Nat)
  | slot (label : SlotLabel) (script : SlotScript (List Op))
  | dealloc (name : String) (ops : List Op)
  | converter (hooks : List (String × Hook CodeId))

structure Client where
  registers : Registers
  shares : Nat
  /-- Numbers of what operations are at work on, once for each of them. -/
  inUse : List Nat
  orphans : List (Nat × List Handle)
  /-- Code by its number, with the number of its runs. -/
  codes : Array (Code × Nat)
  journal : Array Entry
  /-- Whether log events go into the journal. -/
  tracing : Bool
  log : Array Log.Event

namespace Client

def start (tracing : Bool) : Client :=
  { registers := [], shares := 0, inUse := [], orphans := [], codes := #[], journal := #[],
    tracing, log := #[] }

def note (entry : Entry) (c : Client) : Client := { c with journal := c.journal.push entry }

/-- Takes note of a log event. Events about types are not traced. -/
def observe (e : Log.Event) (c : Client) : Client :=
  let c := { c with log := c.log.push e }
  if c.tracing && !e.isAboutTypes then c.note (.event e) else c

end Client

abbrev Run (α : Type) := Act Client α

variable {α : Type}

def note (entry : Entry) : Run Unit := Act.modifyClient (·.note entry)

def journaled (act : Run α) : Run (α × List Entry) := do
  let outer := (← Act.client).journal
  Act.modifyClient fun c => { c with journal := #[] }
  let a ← act
  let inner := (← Act.client).journal
  Act.modifyClient fun c => { c with journal := outer }
  pure (a, inner.toList)

def install (code : Code) : Run CodeId := do
  let id := (← Act.client).codes.size
  Act.modifyClient fun c => { c with codes := c.codes.push (code, 0) }
  pure id

def enterCode (id : CodeId) : Run (Option (Code × Nat)) := do
  match (← Act.client).codes[id]? with
  | none => pure none
  | some (code, runs) =>
    Act.modifyClient fun c => { c with codes := c.codes.setIfInBounds id (code, runs + 1) }
    pure (some (code, runs))

def codeAt (id : CodeId) : Run (Option Code) := do
  pure ((← Act.client).codes[id]?.map (·.1))

/-- Runs a block on borrowed arguments. A block yields nothing; what other code yields is given
back. -/
def runBlock (id : CodeId) (arguments : List Handle) : Run Unit := fun env w =>
  (do
    let out ← fun env w => env.hooks.call id arguments w
    releaseAll out.toList : Run Unit) env w

def installHooks : List (String × Hook (List Op)) → Run (List (String × Hook CodeId))
  | [] => pure []
  | (key, hook) :: rest => do
    let before ← install (.block hook.before)
    let after ← install (.block hook.after)
    let rest ← installHooks rest
    pure ((key, { before, after, mode := hook.mode }) :: rest)

def installConverter : Converter (List Op) → Run (Option CodeId)
  | .builtin => pure none
  | .custom hooks => do
    let hooks ← installHooks hooks
    some <$> install (.converter hooks)

def nextHook (id : CodeId) : Run (Option (Hook CodeId)) := do
  match ← enterCode id with
  | some (.converter hooks, k) =>
    pure ((hooks.lookup (toString k)).or (hooks.lookup "*"))
  | _ => pure none

end Causeway.Machine
