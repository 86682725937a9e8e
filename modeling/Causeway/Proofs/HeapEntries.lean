import Causeway.Object.Heap
import Mathlib.Algebra.Order.Group.Multiset
import Mathlib.Algebra.BigOperators.Group.List.Basic
import Mathlib.Tactic.Abel
/-!
# Entries of the heap

What each heap operation does to the entry a handle names and to sums over the slots. Later proofs
look at a heap through these equations and never open the slot vector.
-/
set_option autoImplicit false

namespace Causeway

namespace HeapSlot

def refcount (s : HeapSlot) : Nat :=
  match s.entry with
  | some e => e.refcount
  | none => 0

def units (s : HeapSlot) : Multiset Handle :=
  match s.entry with
  | some e => ↑e.payload.units
  | none => 0

def occupancy (s : HeapSlot) : Nat :=
  match s.entry with
  | some _ => 1
  | none => 0

end HeapSlot

def Released.units : Released → Multiset Handle
  | .alive _ => 0
  | .dead p => ↑p.units

namespace Heap

variable {M : Type} [AddCommMonoid M]

def tally (f : HeapSlot → M) (heap : Heap) : M := (heap.slots.toList.map f).sum

def occupied (heap : Heap) : Nat := heap.tally HeapSlot.occupancy

def refcounts (heap : Heap) : Nat := heap.tally HeapSlot.refcount

def units (heap : Heap) : Multiset Handle := heap.tally HeapSlot.units

theorem sum_map_set {α : Type} (f : α → M) (xs : List α) (i : Nat) (old new : α)
    (h : xs[i]? = some old) : ((xs.set i new).map f).sum + f old = (xs.map f).sum + f new := by
  induction xs generalizing i with
  | nil => simp at h
  | cons x rest ih =>
    cases i with
    | zero =>
      simp only [List.getElem?_cons_zero, Option.some.injEq] at h
      subst h
      simp only [List.set_cons_zero, List.map_cons, List.sum_cons]
      abel
    | succ i =>
      have hrest := ih i (by simpa using h)
      simp only [List.set_cons_succ, List.map_cons, List.sum_cons]
      rw [add_assoc, hrest, add_assoc]

theorem tally_set (f : HeapSlot → M) (heap : Heap) (free : List Nat) (stats : Stats) (i : Nat)
    (old new : HeapSlot) (h : heap.slots[i]? = some old) :
    tally f ⟨heap.slots.setIfInBounds i new, free, stats⟩ + f old = tally f heap + f new := by
  unfold tally
  rw [Array.toList_setIfInBounds]
  exact sum_map_set f heap.slots.toList i old new (by simpa using h)

theorem tally_push (f : HeapSlot → M) (heap : Heap) (free : List Nat) (stats : Stats)
    (s : HeapSlot) : tally f ⟨heap.slots.push s, free, stats⟩ = tally f heap + f s := by
  simp [tally]

theorem entryAt?_eq_some_iff (heap : Heap) (h : Handle) (e : HeapEntry) :
    heap.entryAt? h = some e ↔ heap.slots[h.index]? = some ⟨h.generation, some e⟩ := by
  unfold entryAt?
  cases hs : heap.slots[h.index]? with
  | none => simp
  | some s =>
    obtain ⟨g, entry⟩ := s
    by_cases hg : g = h.generation
    · simp [hg]
    · simp [hg]

theorem isAlive_iff (heap : Heap) (h : Handle) :
    heap.isAlive h = true ↔ ∃ e, heap.entryAt? h = some e := by
  simp [isAlive, Option.isSome_iff_exists]

theorem payload?_eq_some_iff (heap : Heap) (h : Handle) (p : Payload) :
    heap.payload? h = some p ↔ ∃ e, heap.entryAt? h = some e ∧ e.payload = p := by
  simp [payload?]

theorem entryAt?_set_of_ne (heap : Heap) (free : List Nat) (stats : Stats) (i : Nat) (s : HeapSlot)
    (h : Handle) (hi : h.index ≠ i) :
    entryAt? ⟨heap.slots.setIfInBounds i s, free, stats⟩ h = heap.entryAt? h := by
  unfold entryAt?
  rw [Array.getElem?_setIfInBounds_ne (Ne.symm hi)]

/-- A handle whose slot is written names what was written, if it has the generation. -/
theorem entryAt?_set_self (heap : Heap) (free : List Nat) (stats : Stats) (i : Nat)
    (old s : HeapSlot) (g : UInt32) (hs : heap.slots[i]? = some old) :
    entryAt? ⟨heap.slots.setIfInBounds i s, free, stats⟩ ⟨i, g⟩ =
      if s.generation = g then s.entry else none := by
  have hlt : i < heap.slots.size := (Array.getElem?_eq_some_iff.1 hs).1
  unfold entryAt?
  rw [Array.getElem?_setIfInBounds_self_of_lt hlt]

/-- Two handles of one slot that differ cannot both be alive. -/
theorem entryAt?_none_of_generation (heap : Heap) (h : Handle) (s : HeapSlot)
    (hs : heap.slots[h.index]? = some s) (hg : s.generation ≠ h.generation) :
    heap.entryAt? h = none := by
  simp [entryAt?, hs, hg]

end Heap

end Causeway
