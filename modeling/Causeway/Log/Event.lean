import Causeway.Object.Heap
import Causeway.Failure
import Causeway.Log.Level
/-!
# Log events

Everything the library reports about itself, and how each report is laid out as fields.
-/
set_option autoImplicit false

namespace Causeway.Log

inductive Site where
  | element
  | argument
  | result
deriving DecidableEq

def Site.name : Site → String
  | .element => "element"
  | .argument => "argument"
  | .result => "result"

inductive Event where
  | allocated (object : Handle) (typeName : String)
  | acquired (object : Handle) (count : Nat)
  | released (object : Handle) (count : Nat)
  | deallocated (object : Handle) (typeName : String)
  | raised (error : Raised)
  | cleared (kind : ExceptionKind)
  | overwritten (previous : Raised)
  | iterationStarted (typeName : String)
  | iterationEnded (elements : Nat)
  | sequenceEnded (produced : Nat)
  | called (function : String) (arguments : Nat)
  | callFailed (function : String)
  | conversionFailed (site : Site) (index : Nat)
  | heapOccupied (stats : Stats)
  | heapEmpty (allocations : Nat)
  | started
  | stopped (live : Nat)
  | configurationIgnored
  /-- A type of native objects is put to use. -/
  | typeDescribed (name path : String)
  | stateDropped (path : String)
deriving DecidableEq

inductive FieldValue where
  | text (value : String)
  | number (value : Nat)
deriving DecidableEq

namespace Event

def level : Event → Level
  | allocated _ _ | acquired _ _ | released _ _ | deallocated _ _ => .trace
  | iterationStarted _ | iterationEnded _ | sequenceEnded _ | called _ _ => .trace
  | stateDropped _ => .trace
  | raised _ | cleared _ | callFailed _ | conversionFailed _ _ | heapEmpty _ => .debug
  | typeDescribed _ _ => .debug
  | overwritten _ | heapOccupied _ | configurationIgnored => .warn
  | started | stopped _ => .info

def target : Event → String
  | allocated _ _ | acquired _ _ | released _ _ | deallocated _ _ => "heap"
  | heapOccupied _ | heapEmpty _ => "heap"
  | raised _ | cleared _ | overwritten _ => "error"
  | iterationStarted _ | iterationEnded _ | sequenceEnded _ => "iter"
  | called _ _ | callFailed _ => "call"
  | conversionFailed _ _ => "convert"
  | started | stopped _ => "runtime"
  | configurationIgnored => "pybridge"
  | typeDescribed _ _ | stateDropped _ => "types"

def message : Event → String
  | allocated _ _ => "object allocated"
  | acquired _ _ => "reference acquired"
  | released _ _ => "reference released"
  | deallocated _ _ => "object deallocated"
  | raised e => e.message
  | cleared _ => "error cleared"
  | overwritten _ => "error indicator overwritten"
  | iterationStarted _ => "foreign iteration started"
  | iterationEnded _ => "foreign iteration exhausted"
  | sequenceEnded _ => "native range exhausted"
  | called _ _ => "peer call"
  | callFailed _ => "peer call raised"
  | conversionFailed _ _ => "conversion failed"
  | heapOccupied _ => "peer heap still holds objects"
  | heapEmpty _ => "peer heap empty"
  | started => "pybridge initialized"
  | stopped _ => "pybridge shutting down"
  | configurationIgnored => "ignoring configuration: failed to parse config"
  | typeDescribed _ _ => "native type registered"
  | stateDropped _ => "dropping native state"

def fields : Event → List (String × FieldValue)
  | allocated h t => [("event", .text "alloc"), ("object", .text h.text), ("type_name", .text t)]
  | acquired h n => [("event", .text "acquire"), ("object", .text h.text), ("count", .number n)]
  | released h n => [("event", .text "release"), ("object", .text h.text), ("count", .number n)]
  | deallocated h t =>
    [("event", .text "dealloc"), ("object", .text h.text), ("type_name", .text t)]
  | raised e => [("event", .text "raise"), ("kind", .text e.kind.name)]
  | cleared k => [("event", .text "clear"), ("kind", .text k.name)]
  | overwritten e => [("pending", .text e.text)]
  | iterationStarted t => [("event", .text "iteration_start"), ("type_name", .text t)]
  | iterationEnded n => [("event", .text "iteration_end"), ("elements", .number n)]
  | sequenceEnded n => [("produced", .number n)]
  | called f n => [("event", .text "call"), ("function", .text f), ("args", .number n)]
  | callFailed f => [("event", .text "call_failed"), ("function", .text f)]
  | conversionFailed s i =>
    [("event", .text "conversion_failed"), ("site", .text s.name), ("index", .number i)]
  | heapOccupied s =>
    [("live_objects", .number s.live), ("acquires", .number s.acquires),
      ("releases", .number s.releases)]
  | heapEmpty n => [("allocations", .number n)]
  | started => [("event", .text "runtime_init")]
  | stopped n => [("event", .text "runtime_shutdown"), ("live_objects", .number n)]
  | configurationIgnored => []
  | typeDescribed name path =>
    [("event", .text "type_registered"), ("name", .text name), ("rust_type", .text path)]
  | stateDropped path => [("state", .text path)]

def fieldNames (e : Event) : List String := "message" :: e.fields.map (·.1)

/-- Events about types say what a process had not used before, so they count as written but are not
shown. -/
def isAboutTypes (e : Event) : Bool := e.target == "types"

end Event

end Causeway.Log
