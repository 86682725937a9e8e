/-!
# Log levels
-/
set_option autoImplicit false

namespace Causeway.Log

inductive Level where
  | error
  | warn
  | info
  | debug
  | trace
deriving DecidableEq, Inhabited

namespace Level

def name : Level → String
  | error => "ERROR"
  | warn => "WARN"
  | info => "INFO"
  | debug => "DEBUG"
  | trace => "TRACE"

def verbosity : Level → Nat
  | error => 1
  | warn => 2
  | info => 3
  | debug => 4
  | trace => 5

/-- A level by name in any case. No character outside ASCII becomes a letter of these names in lower
case, so ASCII case is enough. -/
def parse? (s : String) : Option Level :=
  match s.map Char.toLower with
  | "trace" => some trace
  | "debug" => some debug
  | "info" => some info
  | "warn" | "warning" => some warn
  | "error" => some error
  | _ => none

end Level

end Causeway.Log
