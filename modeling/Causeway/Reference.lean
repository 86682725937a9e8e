import Causeway.Action
/-!
# References

Making and giving back count units. An object that loses its last unit gives up its payload after
its slot is vacated, so whatever runs then finds a heap in order.

Everything that recurs does so through the environment: `Env.tie` closes the knot for given user
code, one level of the budget for each entry.
-/
set_option autoImplicit false

namespace Causeway

open Log (Event)

variable {U α : Type}

def traced (e : Event) : Act U Unit := do
  if (← Act.settings).traceReferences then Act.emit e

def release (h : Handle) : Act U Unit := fun env w => env.release h w

/-- Gives units back in order; a fault on the way does not keep the others. -/
def releaseAll : List Handle → Act U Unit
  | [] => pure ()
  | h :: hs => do
    (release h).onFault (releaseAll hs)
    releaseAll hs

/-- Runs `act` while owning `units`: should it fault, they are given back. -/
@[inline] def holding (units : List Handle) (act : Act U α) : Act U α :=
  act.onFault (releaseAll units)

@[inline] def lending (units : List Handle) (act : Act U α) : Act U α := do
  let a ← holding units act
  releaseAll units
  pure a

def alloc (p : Payload) : Act U Handle := do
  let h ← Act.updateHeap (·.insert p)
  traced (.allocated h p.typeName)
  pure h

def acquire (h : Handle) : Act U Handle := do
  match ← Act.updateHeap? (·.increment? h) with
  | some count =>
    traced (.acquired h count)
    pure h
  | none => Act.fault (.acquireReleased h)

/-- New units on objects in order, behind those `made` already; a fault gives all of them back. -/
def acquireBehind (made : List Handle) : List Handle → Act U (List Handle)
  | [] => pure made
  | h :: hs => do
    let h ← holding made (acquire h)
    acquireBehind (made ++ [h]) hs

def acquireAll (hs : List Handle) : Act U (List Handle) := acquireBehind [] hs

def disposeState (d : Descriptor) (s : NativeState) : Act U Unit :=
  match d.dealloc with
  | .drop => do
    Act.emit (.stateDropped s.kind.path)
    releaseAll s.units
  | .user code => fun env w => env.hooks.destroy code s.units w

/-- Gives up a payload. State that is away is not the object's any more. -/
def dispose : Payload → Act U Unit
  | .native d (some s) => disposeState d s
  | p => releaseAll p.units

def releaseNow (h : Handle) : Act U Unit := do
  match ← Act.updateHeap? (·.decrement? h) with
  | none => Act.fault (.doubleRelease h)
  | some (.alive count) => traced (.released h count)
  | some (.dead p) =>
    traced (.deallocated h p.typeName)
    dispose p

def Hooks.exhausted : Hooks U where
  call := fun _ _ _ => .unfinished
  slot := fun _ _ _ => .unfinished
  measure := fun _ _ _ => .unfinished
  destroy := fun _ _ _ => .unfinished
  toPeer := fun _ _ _ _ => .unfinished

/-- The environment of user code that is itself written against an environment. -/
def Env.tie (observe : Event → U → U) (user : Env U → Hooks U) : Nat → Env U
  | 0 =>
    { budget := 0, release := fun _ _ => .unfinished, observe, hooks := .exhausted }
  | n + 1 =>
    { budget := n
      release := fun h w => releaseNow h (tie observe user n) w
      observe
      hooks :=
        { call := fun c hs w => (user (tie observe user n)).call c hs w
          slot := fun c h w => (user (tie observe user n)).slot c h w
          measure := fun c h w => (user (tie observe user n)).measure c h w
          destroy := fun c hs w => (user (tie observe user n)).destroy c hs w
          toPeer := fun c t v w => (user (tie observe user n)).toPeer c t v w } }

def stats : Act U Stats := Act.heap (·.stats)

def audit : Act U Nat := do
  let s ← stats
  if s.live > 0 then Act.emit (.heapOccupied s) else Act.emit (.heapEmpty s.allocations)
  pure s.live

def shutDown : Act U Nat := do
  let live ← audit
  Act.emit (.stopped live)
  pure live

end Causeway
