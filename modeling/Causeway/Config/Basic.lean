import Causeway.Action
import Causeway.Log.Config
/-!
# Configuration

What a configuration document says, with a default for everything it leaves out.
-/
set_option autoImplicit false

namespace Causeway

structure LoggingSection where
  /-- Kept as it was written; a name that is no level means the default level. -/
  level : String := "info"
  format : Log.Format := .pretty
  file : Option String := none
  spanEvents : Bool := false
deriving DecidableEq

structure RuntimeSection where
  traceReferences : Bool := false
  strictIndicator : Bool := false
deriving DecidableEq

structure IterationSection where
  reserveFromHint : Bool := true
deriving DecidableEq

structure Config where
  logging : LoggingSection := {}
  runtime : RuntimeSection := {}
  iteration : IterationSection := {}
deriving DecidableEq

namespace Config

def log (c : Config) : Log.Config where
  level := (Log.Level.parse? c.logging.level).getD .info
  format := c.logging.format
  output := match c.logging.file with
    | some directory => .files directory Log.fileStem
    | none => .stderr
  spanEvents := c.logging.spanEvents

def settings (c : Config) : Settings where
  traceReferences := c.runtime.traceReferences
  strictIndicator := c.runtime.strictIndicator
  reserveFromHint := c.iteration.reserveFromHint

end Config

end Causeway
