/-!
# Handles

A handle names one object of the peer heap for ever: the slot it was put in and the generation the
slot had then. It carries no count unit; a list of handles that a definition calls *units* does, one
for each occurrence. Generations wrap around as words do. Slots are numbered without a bound, where
a handle that is stored has 32 bits for the number and no heap may outgrow them.
-/
set_option autoImplicit false

namespace Causeway

structure Handle where
  index : Nat
  generation : UInt32
deriving DecidableEq, Inhabited

namespace Handle

def text (h : Handle) : String := s!"PyObject(#{h.index}@{h.generation.toNat})"

def width : Nat := 8

def ownerText (h : Handle) : String := s!"PyOwned({h.text})"

end Handle

/-- A name for a piece of user code. What the code does is told by the hooks an action runs under,
so every statement about an action covers every behaviour of the code. -/
abbrev CodeId := Nat

end Causeway
