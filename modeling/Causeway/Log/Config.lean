import Causeway.Log.Level
/-!
# Log configuration

What a log shows, in which format, and where it goes.
-/
set_option autoImplicit false

namespace Causeway.Log

inductive Format where
  | pretty
  | compact
  | json
deriving DecidableEq, Inhabited

namespace Format

def name : Format → String
  | pretty => "pretty"
  | compact => "compact"
  | json => "json"

def ofName? : String → Option Format
  | "pretty" => some pretty
  | "compact" => some compact
  | "json" => some json
  | _ => none

/-- A format by name in any case. As for levels, ASCII case is enough. -/
def parse? (s : String) : Option Format := ofName? (s.map Char.toLower)

end Format

inductive Output where
  | stdout
  | stderr
  | files (directory stem : String)
deriving DecidableEq

structure Config where
  level : Level := .info
  format : Format := .pretty
  output : Output := .stderr
  spanEvents : Bool := false
  filter : Option String := none
deriving DecidableEq

abbrev Variables := List (String × String)

def fileStem : String := "pybridge"

namespace Config

def ofVariables (env : Variables) : Config where
  level := ((env.lookup "PYBRIDGE_LOG_LEVEL").bind Level.parse?).getD .info
  format := ((env.lookup "PYBRIDGE_LOG_FORMAT").bind Format.parse?).getD .pretty
  output := match env.lookup "PYBRIDGE_LOG_FILE" with
    | some directory => .files directory fileStem
    | none => .stderr
  spanEvents := (env.lookup "PYBRIDGE_LOG_SPANS").isSome

end Config

end Causeway.Log
