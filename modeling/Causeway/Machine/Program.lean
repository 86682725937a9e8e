import Causeway.Machine.Script
/-!
# Programs

A program is a list of operations on an empty heap. A fault ends it; in any case its registers are
emptied afterwards, in the order of their names, and the library is shut down.
-/
set_option autoImplicit false

namespace Causeway.Machine

/-- How deep user code may nest, and how often a loop may go round. No program comes near it. -/
def budget : Nat := Nat.pow 2 62

def programEnv : Env Client := Env.tie Client.observe userCode budget

structure Closing where
  live : Nat
  pending : Option Raised
  stats : Stats
  inner : List Entry
  /-- Faults met while registers were emptied. -/
  faults : List Fault

structure Report where
  steps : List Entry
  closing : Closing

namespace Program

/-- Performs operations up to the end or to the first fault. -/
def steps (env : Env Client) : List Op → World Client → Option (List Entry × World Client)
  | [], w => some ([], w)
  | op :: ops, w =>
    match runOp [] op env w with
    | .done entry w => (steps env ops w).map fun (entries, w) => (entry :: entries, w)
    | .fault c w => some ([.record (.fault c) w.pending w.heap.stats []], w)
    | .unfinished => none

def emptyRegisters : Run (List Fault) :=
  Act.loop
    (fun faults => do
      match (← Act.client).registers with
      | [] => pure (.inr faults)
      | (name, x) :: _ =>
        emptyRegister name
        match ← x.drop.caught with
        | .ok () => pure (.inl faults)
        | .error c => pure (.inl (faults ++ [c])))
    []

def close : Run Closing := do
  let ((faults, live), inner) ← journaled do
    let faults ← emptyRegisters
    pure (faults, ← shutDown)
  let w ← Act.world
  pure { live, pending := w.pending, stats := w.heap.stats, inner, faults }

def run (tracing : Bool) (settings : Settings) (ops : List Op) :
    Option (Report × List Log.Event) := do
  let w : World Client :=
    { heap := .empty, pending := none, settings, client := .start tracing }
  let (steps, w) ← steps programEnv ops w
  match close programEnv w with
  | .done closing w => some (⟨steps, closing⟩, w.client.log.toList)
  | _ => none

end Program

end Causeway.Machine
