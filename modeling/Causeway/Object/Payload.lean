import Causeway.Native.State
/-!
# Payloads

What an object of the peer heap holds, and the count units it owns thereby. A function owns none:
its code is known by number, and code that captures units is left out.
-/
set_option autoImplicit false

namespace Causeway

inductive Payload where
  | none
  | bool (value : Bool)
  | int (value : Int64)
  | float (value : Binary64)
  | str (text : String)
  | list (items : List Handle)
  /-- The slots of an argument container start empty. -/
  | tuple (slots : List (Option Handle))
  | set (items : List Handle)
  /-- A builtin iterator: an item index, or a byte offset into a string. -/
  | iterator (seq : Handle) (position : Nat)
  | function (name : String) (code : CodeId)
  /-- The state is away while a slot of the object runs. -/
  | native (descriptor : Descriptor) (state : Option NativeState)

namespace Payload

def typeName : Payload → String
  | none => "NoneType"
  | bool _ => "bool"
  | int _ => "int"
  | float _ => "float"
  | str _ => "str"
  | list _ => "list"
  | tuple _ => "tuple"
  | set _ => "set"
  | iterator _ _ => "iterator"
  | function _ _ => "function"
  | native d _ => d.name

/-- The units a payload owns, in the order in which disposing of it releases them. -/
def units : Payload → List Handle
  | list items | set items => items
  | tuple slots => slots.filterMap id
  | iterator seq _ => [seq]
  | native _ (some s) => s.units
  | _ => []

end Payload

end Causeway
