import Causeway.Object.Payload
/-!
# The peer heap

A vector of slots and a free list. Releasing the last unit of an object vacates its slot, bumps the
slot's generation and pushes the slot on the free list, so a stale handle is told from a live one.
Every unit created or destroyed is tallied. The heap grows by a slot whenever none is vacant; that
slot numbers stay below `2 ^ 32` is left to whoever runs it.
-/
set_option autoImplicit false

namespace Causeway

structure Stats where
  live : Nat
  allocations : Nat
  deallocations : Nat
  acquires : Nat
  releases : Nat
deriving DecidableEq, Inhabited

namespace Stats

def zero : Stats := ⟨0, 0, 0, 0, 0⟩

def since (s earlier : Stats) : Stats where
  live := s.live - earlier.live
  allocations := s.allocations - earlier.allocations
  deallocations := s.deallocations - earlier.deallocations
  acquires := s.acquires - earlier.acquires
  releases := s.releases - earlier.releases

def allocate (s : Stats) : Stats :=
  { s with live := s.live + 1, allocations := s.allocations + 1, acquires := s.acquires + 1 }

def balanced (s : Stats) : Bool := s.acquires == s.releases && s.allocations == s.deallocations

end Stats

structure HeapEntry where
  refcount : Nat
  payload : Payload

structure HeapSlot where
  generation : UInt32
  entry : Option HeapEntry

structure Heap where
  slots : Array HeapSlot
  free : List Nat
  stats : Stats

inductive Released where
  | alive (refcount : Nat)
  | dead (payload : Payload)

namespace Heap

def empty : Heap := ⟨#[], [], .zero⟩

/-- The entry a handle names, unless its object is gone. -/
def entryAt? (heap : Heap) (h : Handle) : Option HeapEntry :=
  match heap.slots[h.index]? with
  | some slot => if slot.generation = h.generation then slot.entry else none
  | none => none

def payload? (heap : Heap) (h : Handle) : Option Payload := (heap.entryAt? h).map (·.payload)

def isAlive (heap : Heap) (h : Handle) : Bool := (heap.entryAt? h).isSome

def refcount (heap : Heap) (h : Handle) : Nat :=
  match heap.entryAt? h with
  | some e => e.refcount
  | none => 0

def typeName (heap : Heap) (h : Handle) : String :=
  match heap.payload? h with
  | some p => p.typeName
  | none => "<released>"

def setEntry (heap : Heap) (h : Handle) (e : HeapEntry) : Heap :=
  { heap with slots := heap.slots.setIfInBounds h.index ⟨h.generation, some e⟩ }

def push (heap : Heap) (p : Payload) : Handle × Heap :=
  (⟨heap.slots.size, 0⟩,
    ⟨heap.slots.push ⟨0, some ⟨1, p⟩⟩, heap.free, heap.stats.allocate⟩)

/-- A new object with one unit, in the slot vacated last if there is one. -/
def insert (heap : Heap) (p : Payload) : Handle × Heap :=
  match heap.free with
  | [] => heap.push p
  | index :: free =>
    match heap.slots[index]? with
    | none => heap.push p
    | some slot =>
      (⟨index, slot.generation⟩,
        ⟨heap.slots.setIfInBounds index ⟨slot.generation, some ⟨1, p⟩⟩, free,
          heap.stats.allocate⟩)

@[inline] def increment? (heap : Heap) (h : Handle) : Option (Nat × Heap) :=
  (heap.entryAt? h).map fun e =>
    let heap := heap.setEntry h { e with refcount := e.refcount + 1 }
    (e.refcount + 1, { heap with stats := { heap.stats with acquires := heap.stats.acquires + 1 } })

/-- One unit less on a live object; the last one vacates its slot. -/
@[inline] def decrement? (heap : Heap) (h : Handle) : Option (Released × Heap) :=
  (heap.entryAt? h).map fun e =>
    let stats := { heap.stats with releases := heap.stats.releases + 1 }
    if e.refcount - 1 > 0 then
      let heap := heap.setEntry h { e with refcount := e.refcount - 1 }
      (.alive (e.refcount - 1), { heap with stats })
    else
      (.dead e.payload,
        { slots := heap.slots.setIfInBounds h.index ⟨h.generation + 1, none⟩
          free := h.index :: heap.free
          stats := { stats with
            deallocations := stats.deallocations + 1
            live := stats.live - 1 } })

def setPayload (heap : Heap) (h : Handle) (p : Payload) : Heap :=
  match heap.entryAt? h with
  | some e => heap.setEntry h { e with payload := p }
  | none => heap

end Heap

end Causeway
