import Causeway.Config.Basic
import Causeway.Toml.Document
/-!
# Reading a configuration

From the tree of a document to a configuration. Unknown keys are ignored; a known key with a value
of the wrong type is an error. A section may also be an array, which gives its fields in order, or a
point in time, which counts as a table without any known key.
-/
set_option autoImplicit false

namespace Causeway.Config

open Toml

abbrev Field (α : Type) := Node → Option α

def text : Field String
  | .scalar (.text s) => some s
  | _ => none

def bool : Field Bool
  | .scalar (.bool b) => some b
  | _ => none

/-- A choice is its name, or the name as the only key of a table with nothing under it. -/
def choice {α : Type} (ofName? : String → Option α) : Field α
  | .scalar (.text s) => ofName? s
  | .table _ [(name, below)] =>
    match below with
    | .table _ [] | .array [] => ofName? name
    | _ => none
  | _ => none

def fieldOf (node : Node) (name : String) (place : Nat) : Option (Option Node) :=
  match node with
  | .table _ entries => some (Entries.get? entries name)
  | .array items => some items[place]?
  | .tables last earlier => some (earlier.reverse ++ [last])[place]?
  | .scalar .dateTime => some none
  | .scalar _ => none

def fieldOr {α : Type} (node : Node) (name : String) (place : Nat) (field : Field α)
    (default : α) : Option α := do
  match ← fieldOf node name place with
  | none => pure default
  | some value => field value

def loggingSection : Field LoggingSection := fun node => do
  pure {
    level := ← fieldOr node "level" 0 text "info"
    format := ← fieldOr node "format" 1 (choice Log.Format.ofName?) .pretty
    file := ← fieldOr node "file" 2 (fun v => some <$> text v) none
    spanEvents := ← fieldOr node "span_events" 3 bool false }

def runtimeSection : Field RuntimeSection := fun node => do
  pure {
    traceReferences := ← fieldOr node "trace_refcounts" 0 bool false
    strictIndicator := ← fieldOr node "strict_indicator" 1 bool false }

def iterationSection : Field IterationSection := fun node => do
  pure { reserveFromHint := ← fieldOr node "reserve_from_length_hint" 0 bool true }

def ofToml? (document : String) : Option Config := do
  let root := Node.table .header (← parse? document)
  pure {
    logging := ← fieldOr root "logging" 0 loggingSection {}
    runtime := ← fieldOr root "runtime" 1 runtimeSection {}
    iteration := ← fieldOr root "iteration" 2 iterationSection {} }

end Causeway.Config
