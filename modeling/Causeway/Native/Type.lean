import Causeway.Number.Binary64
import Causeway.Object.Handle
/-!
# Native types

The language of types that cross the boundary, and their values. A value's `units` are the count
units it owns, in the order in which giving the value up releases them.
-/
set_option autoImplicit false

namespace Causeway

inductive NativeType where
  | i64
  | i32
  | usize
  | f64
  | bool
  | text
  | unit
  | object
  | option (elem : NativeType)
  | pair (first second : NativeType)
  | triple (first second third : NativeType)
  | vec (elem : NativeType)
  /-- A re-iterable view over a peer iterable. -/
  | view (elem : NativeType)
  /-- A peer callable taking and giving one `i64`. -/
  | callable
deriving DecidableEq, Inhabited

namespace NativeType

def Value : NativeType → Type
  | i64 => Int64
  | i32 => Int32
  | usize => UInt64
  | f64 => Binary64
  | bool => Bool
  | text => String
  | unit => Unit
  | object => Handle
  | option t => Option t.Value
  | pair a b => a.Value × b.Value
  | triple a b c => a.Value × b.Value × c.Value
  | vec t => List t.Value
  | view _ => Handle
  | callable => Handle

def units : (t : NativeType) → t.Value → List Handle
  | i64, _ | i32, _ | usize, _ | f64, _ | bool, _ | text, _ | unit, _ => []
  | object, h => [h]
  | option _, none => []
  | option t, some v => t.units v
  | pair a b, (x, y) => a.units x ++ b.units y
  | triple a b c, (x, y, z) => a.units x ++ b.units y ++ c.units z
  | vec t, vs => List.flatMap t.units vs
  | view _, h => [h]
  | callable, h => [h]

def path : NativeType → String
  | i64 => "i64"
  | i32 => "i32"
  | usize => "usize"
  | f64 => "f64"
  | bool => "bool"
  | text => "alloc::string::String"
  | unit => "()"
  | object => "pybridge::runtime::object::PyOwned"
  | option t => s!"core::option::Option<{t.path}>"
  | pair a b => s!"({a.path}, {b.path})"
  | triple a b c => s!"({a.path}, {b.path}, {c.path})"
  | vec t => s!"alloc::vec::Vec<{t.path}>"
  | view t => s!"pybridge::adapters::iterable::ForeignIterableView<{t.path}>"
  | callable => "pybridge::adapters::callable::ForeignCallable<i64, (i64,)>"

/-- How values lie in memory: their bytes, what their addresses are multiples of, and how many
patterns of bits in one of their parts stand for no value. -/
structure Layout where
  width : Nat
  align : Nat
  spare : Nat

namespace Layout

/-- Parts side by side, in the order that leaves a gap at the end only. -/
def record (parts : List Layout) : Layout :=
  let align := (parts.map (·.align)).foldl max 1
  let width := parts.foldl (fun n l => n + l.width) 0
  ⟨(width + (align - 1)) / align * align, align, (parts.map (·.spare)).foldl max 0⟩

/-- Absence is a spare pattern, or else there is a tag in front. -/
def optional (l : Layout) : Layout :=
  if l.spare = 0 then ⟨l.width + l.align, l.align, Nat.pow 2 (8 * l.align) - 2⟩
  else { l with spare := l.spare - 1 }

end Layout

def layout : NativeType → Layout
  | i64 | usize | f64 => ⟨8, 8, 0⟩
  | i32 => ⟨4, 4, 0⟩
  | bool => ⟨1, 1, 254⟩
  | unit => ⟨0, 1, 0⟩
  | object => ⟨Handle.width, 4, 0⟩
  | text | vec _ => ⟨24, 8, Nat.pow 2 63⟩
  | option t => t.layout.optional
  | pair a b => .record [a.layout, b.layout]
  | triple a b c => .record [a.layout, b.layout, c.layout]
  | view _ | callable => ⟨40, 8, 1⟩

def width (t : NativeType) : Nat := t.layout.width

end NativeType

end Causeway
