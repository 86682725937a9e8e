import Causeway.Proofs.Invocation
import Causeway.Proofs.ProgramRuns
/-!
# Stale handles

A slot keeps only its generation of all that happened to it, and the generation wraps around. Beside
the heap a chronicle is kept, which numbers the objects in the order in which they are made and
says which are gone, which of them each slot holds, and how often each slot was vacated. Against it
a handle can be held: it names the object it was made for, or nothing.
-/
set_option autoImplicit false

namespace Causeway

open Act

variable {U α : Type} {heap next heap₀ : Heap} {h : Handle} {p : Payload} {e : HeapEntry}

namespace Heap

def outline (heap : Heap) (i : Nat) : Option (UInt32 × Bool) :=
  heap.slots[i]?.map fun s => (s.generation, s.entry.isSome)

theorem isAlive_iff_outline (heap : Heap) (h : Handle) :
    heap.isAlive h = true ↔ heap.outline h.index = some (h.generation, true) := by
  unfold isAlive entryAt? outline
  cases heap.slots[h.index]? with
  | none => simp
  | some s => by_cases hg : s.generation = h.generation <;> simp [hg]

theorem outline_of_entryAt? (he : heap.entryAt? h = some e) :
    heap.outline h.index = some (h.generation, true) :=
  (isAlive_iff_outline heap h).1 ((isAlive_iff heap h).2 ⟨e, he⟩)

theorem set_outline {i : Nat} (hlt : i < heap.slots.size) (s : HeapSlot) (free : List Nat)
    (stats : Stats) (j : Nat) :
    outline ⟨heap.slots.setIfInBounds i s, free, stats⟩ j =
      if j = i then some (s.generation, s.entry.isSome) else heap.outline j := by
  unfold outline
  by_cases hj : j = i
  · subst hj
    simp [Array.getElem?_setIfInBounds_self_of_lt hlt]
  · rw [Array.getElem?_setIfInBounds_ne (Ne.symm hj), if_neg hj]

theorem setEntry_outline (he : heap.entryAt? h = some e) (e' : HeapEntry) (i : Nat) :
    (heap.setEntry h e').outline i = heap.outline i := by
  have hlt := (Array.getElem?_eq_some_iff.1 ((entryAt?_eq_some_iff heap h e).1 he)).1
  unfold setEntry
  rw [set_outline hlt]
  by_cases hi : i = h.index
  · rw [if_pos hi, hi, outline_of_entryAt? he]
    rfl
  · rw [if_neg hi]

theorem increment?_outline {n : Nat} (hi : heap.increment? h = some (n, next)) (i : Nat) :
    next.outline i = heap.outline i := by
  obtain ⟨e, he, -, rfl⟩ := increment?_eq_some hi
  exact setEntry_outline he _ i

theorem setPayload_outline (heap : Heap) (h : Handle) (p : Payload) (i : Nat) :
    (heap.setPayload h p).outline i = heap.outline i := by
  cases he : heap.entryAt? h with
  | none => simp [setPayload, he]
  | some e =>
    rw [setPayload_of_entryAt? he]
    exact setEntry_outline he _ i

theorem decrement?_alive_outline {n : Nat} (hd : heap.decrement? h = some (.alive n, next))
    (i : Nat) : next.outline i = heap.outline i := by
  obtain ⟨e, he, ⟨-, -, rfl⟩ | ⟨-, ⟨⟩, -⟩⟩ := decrement?_eq_some hd
  exact setEntry_outline he _ i

theorem decrement?_dead_outline (hd : heap.decrement? h = some (.dead p, next)) :
    heap.outline h.index = some (h.generation, true) ∧ ∀ i, next.outline i =
      if i = h.index then some (h.generation + 1, false) else heap.outline i := by
  obtain ⟨e, he, ⟨-, ⟨⟩, -⟩ | ⟨-, -, rfl⟩⟩ := decrement?_eq_some hd
  have hlt := (Array.getElem?_eq_some_iff.1 ((entryAt?_eq_some_iff heap h e).1 he)).1
  exact ⟨outline_of_entryAt? he, set_outline hlt _ _ _⟩

/-- A new object goes into a vacant slot, or into a new one of the first generation. -/
theorem insert_outline (ho : heap.InOrder) (p : Payload) :
    (heap.outline (heap.insert p).1.index = some ((heap.insert p).1.generation, false) ∨
      heap.outline (heap.insert p).1.index = none ∧ (heap.insert p).1.generation = 0) ∧
    ∀ i, (heap.insert p).2.outline i =
      if i = (heap.insert p).1.index then some ((heap.insert p).1.generation, true)
      else heap.outline i := by
  obtain hp | ⟨i, g, rest, -, hs, hp⟩ := insert_cases ho p
  · rw [hp]
    refine ⟨.inr ⟨by simp [outline, push], rfl⟩, fun i => ?_⟩
    simp only [outline, push, Array.getElem?_push]
    by_cases hi : i = heap.slots.size <;> simp [hi]
  · rw [hp]
    have hlt := (Array.getElem?_eq_some_iff.1 hs).1
    exact ⟨.inl (by simp [outline, hs]), set_outline hlt _ _ _⟩

end Heap

structure Chronicle where
  /-- How many objects were made; the next one has this number. -/
  made : Nat
  gone : List Nat
  inside : Nat → Option Nat
  vacated : Nat → Nat

namespace Chronicle

def blank : Chronicle := ⟨0, [], fun _ => none, fun _ => 0⟩

def make (c : Chronicle) (i : Nat) : Chronicle :=
  { c with made := c.made + 1, inside := Function.update c.inside i (some c.made) }

def vacate (c : Chronicle) (i : Nat) : Chronicle :=
  { c with
    gone := (c.inside i).toList ++ c.gone
    inside := Function.update c.inside i none
    vacated := Function.update c.vacated i (c.vacated i + 1) }

inductive Step : Chronicle × Heap → Chronicle × Heap → Prop where
  | insert (c : Chronicle) (heap : Heap) (p : Payload) :
      Step (c, heap) (c.make (heap.insert p).1.index, (heap.insert p).2)
  | increment {heap next : Heap} {h : Handle} {n : Nat} (c : Chronicle)
      (done : heap.increment? h = some (n, next)) : Step (c, heap) (c, next)
  | alive {heap next : Heap} {h : Handle} {n : Nat} (c : Chronicle)
      (done : heap.decrement? h = some (.alive n, next)) : Step (c, heap) (c, next)
  | dead {heap next : Heap} {h : Handle} {p : Payload} (c : Chronicle)
      (done : heap.decrement? h = some (.dead p, next)) : Step (c, heap) (c.vacate h.index, next)
  | setPayload (c : Chronicle) (heap : Heap) (h : Handle) (p : Payload) :
      Step (c, heap) (c, heap.setPayload h p)

abbrev Run : Chronicle × Heap → Chronicle × Heap → Prop := Relation.ReflTransGen Step

theorem exists_run (c : Chronicle) (steps : Relation.ReflTransGen Heap.Step heap next) :
    ∃ c', Run (c, heap) (c', next) := by
  induction steps with
  | refl => exact ⟨c, .refl⟩
  | tail _ last ih =>
    obtain ⟨c', hrun⟩ := ih
    cases last with
    | insert p => exact ⟨_, hrun.tail (.insert c' _ p)⟩
    | increment done => exact ⟨_, hrun.tail (.increment c' done)⟩
    | @decrement _ h r done =>
      cases r with
      | alive n => exact ⟨_, hrun.tail (.alive c' done)⟩
      | dead p => exact ⟨_, hrun.tail (.dead c' done)⟩
    | setPayload h p => exact ⟨_, hrun.tail (.setPayload c' _ h p)⟩

structure Tells (c : Chronicle) (heap : Heap) : Prop where
  inOrder : heap.InOrder
  slot : ∀ i g b, heap.outline i = some (g, b) →
    g = UInt32.ofNat (c.vacated i) ∧ b = (c.inside i).isSome
  unused : ∀ i, heap.outline i = none → c.vacated i = 0 ∧ c.inside i = none
  inside_lt : ∀ i n, c.inside i = some n → n < c.made
  gone_lt : ∀ n ∈ c.gone, n < c.made

variable {c c' c₀ : Chronicle} {n i v : Nat}

theorem blank_tells : blank.Tells .empty where
  inOrder := Heap.empty_inOrder
  slot := by simp [Heap.outline, Heap.empty]
  unused := by simp [blank]
  inside_lt := by simp [blank]
  gone_lt := by simp [blank]

/-- Where a new object goes nothing was, and the generation of the slot says how often it was
vacated. -/
theorem Tells.insert_slot (ht : c.Tells heap) (p : Payload) :
    c.inside (heap.insert p).1.index = none ∧
      (heap.insert p).1.generation = UInt32.ofNat (c.vacated (heap.insert p).1.index) := by
  obtain ⟨hslot | ⟨hunused, hzero⟩, -⟩ := Heap.insert_outline ht.inOrder p
  · obtain ⟨hg, hinside⟩ := ht.slot _ _ _ hslot
    exact ⟨by simpa using hinside, hg⟩
  · obtain ⟨hvacated, hinside⟩ := ht.unused _ hunused
    exact ⟨hinside, by simp [hzero, hvacated]⟩

theorem Tells.insert (ht : c.Tells heap) (p : Payload) :
    (c.make (heap.insert p).1.index).Tells (heap.insert p).2 := by
  obtain ⟨-, hg⟩ := ht.insert_slot p
  have hnext := (Heap.insert_outline ht.inOrder p).2
  refine ⟨Heap.insert_inOrder ht.inOrder p, fun i g b hi => ?_, fun i hi => ?_, fun i n hn => ?_,
    fun n hn => Nat.lt_succ_of_lt (ht.gone_lt n hn)⟩
  · rw [hnext] at hi
    by_cases hsame : i = (heap.insert p).1.index
    · rw [if_pos hsame] at hi
      cases hi
      simp [make, hsame, hg]
    · rw [if_neg hsame] at hi
      simpa [make, hsame] using ht.slot i g b hi
  · rw [hnext] at hi
    by_cases hsame : i = (heap.insert p).1.index
    · simp [hsame] at hi
    · rw [if_neg hsame] at hi
      simpa [make, hsame] using ht.unused i hi
  · by_cases hsame : i = (heap.insert p).1.index
    · simp [make, hsame] at hn
      simp [make, ← hn]
    · have hlt := ht.inside_lt i n (by simpa [make, hsame] using hn)
      exact Nat.lt_succ_of_lt hlt

/-- An operation that vacates no slot and fills none has no entry to make. -/
theorem Tells.keep (ht : c.Tells heap) (ho : next.InOrder)
    (hsame : ∀ i, next.outline i = heap.outline i) : c.Tells next :=
  ⟨ho, fun i g b hi => ht.slot i g b (hsame i ▸ hi), fun i hi => ht.unused i (hsame i ▸ hi),
    ht.inside_lt, ht.gone_lt⟩

theorem Tells.dead (ht : c.Tells heap) (hd : heap.decrement? h = some (.dead p, next)) :
    (c.vacate h.index).Tells next := by
  obtain ⟨hbefore, hnext⟩ := Heap.decrement?_dead_outline hd
  obtain ⟨hg, -⟩ := ht.slot _ _ _ hbefore
  refine ⟨Heap.decrement?_inOrder hd ht.inOrder, fun i g b hi => ?_, fun i hi => ?_,
    fun i n hn => ?_, fun n hn => ?_⟩
  · rw [hnext] at hi
    by_cases hsame : i = h.index
    · rw [if_pos hsame] at hi
      cases hi
      simp [vacate, hsame, hg, UInt32.ofNat_add]
    · rw [if_neg hsame] at hi
      simpa [vacate, hsame] using ht.slot i g b hi
  · rw [hnext] at hi
    by_cases hsame : i = h.index
    · simp [hsame] at hi
    · rw [if_neg hsame] at hi
      simpa [vacate, hsame] using ht.unused i hi
  · by_cases hsame : i = h.index
    · simp [vacate, hsame] at hn
    · exact ht.inside_lt i n (by simpa [vacate, hsame] using hn)
  · rcases List.mem_append.1 hn with hn | hn
    · exact ht.inside_lt _ n (by simpa using hn)
    · exact ht.gone_lt n hn

theorem Tells.step {x y : Chronicle × Heap} (ht : x.1.Tells x.2) (s : Step x y) :
    y.1.Tells y.2 := by
  cases s with
  | insert c heap p => exact ht.insert p
  | increment c done =>
    exact ht.keep (Heap.increment?_inOrder done ht.inOrder) (Heap.increment?_outline done)
  | alive c done =>
    exact ht.keep (Heap.decrement?_inOrder done ht.inOrder) (Heap.decrement?_alive_outline done)
  | dead c done => exact ht.dead done
  | setPayload c heap h p =>
    exact ht.keep (Heap.setPayload_inOrder ht.inOrder h p) (Heap.setPayload_outline heap h p)

theorem Tells.run {x y : Chronicle × Heap} (ht : x.1.Tells x.2) (run : Run x y) :
    y.1.Tells y.2 := by
  induction run with
  | refl => exact ht
  | tail _ last ih => exact ih.step last

/-- Object `n` was made in slot `i` when that had been vacated `v` times. It is in no other slot,
and it is gone once the slot was vacated again. -/
structure Follows (c : Chronicle) (n i v : Nat) : Prop where
  numbered : n < c.made
  home : ∀ j, c.inside j = some n → j = i ∧ n ∉ c.gone
  present : n ∉ c.gone → c.inside i = some n ∧ c.vacated i = v
  past : n ∈ c.gone → v < c.vacated i

theorem Follows.made (ht : c.Tells heap) (i : Nat) :
    (c.make i).Follows c.made i (c.vacated i) := by
  have hnew : c.made ∉ c.gone := fun hgone => absurd (ht.gone_lt _ hgone) (lt_irrefl _)
  refine ⟨Nat.lt_succ_self _, fun j hj => ⟨?_, hnew⟩, fun _ => by simp [make],
    fun hgone => absurd hgone hnew⟩
  by_contra hne
  have hlt := ht.inside_lt j c.made (by simpa [make, hne] using hj)
  omega

theorem Follows.make (hf : c.Follows n i v) {j : Nat} (hvacant : c.inside j = none) :
    (c.make j).Follows n i v := by
  have hnumber := hf.numbered
  refine ⟨Nat.lt_succ_of_lt hnumber, fun k hk => ?_, fun hn => ?_, hf.past⟩
  · by_cases hkj : k = j
    · have hmade : c.made = n := by simpa [Chronicle.make, hkj] using hk
      omega
    · exact hf.home k (by simpa [Chronicle.make, hkj] using hk)
  · obtain ⟨hinside, hvacated⟩ := hf.present hn
    have hij : i ≠ j := by
      rintro rfl
      rw [hvacant] at hinside
      cases hinside
    exact ⟨by simpa [Chronicle.make, hij] using hinside, hvacated⟩

theorem Follows.vacate (hf : c.Follows n i v) (j : Nat) : (c.vacate j).Follows n i v := by
  have hgone : n ∈ (c.vacate j).gone ↔ c.inside j = some n ∨ n ∈ c.gone := by
    simp [Chronicle.vacate]
  have hle : c.vacated i ≤ (c.vacate j).vacated i := by
    by_cases hij : i = j <;> simp [Chronicle.vacate, hij]
  refine ⟨hf.numbered, fun k hk => ?_, fun hn => ?_, fun hn => ?_⟩
  · have hkj : k ≠ j := by
      rintro rfl
      simp [Chronicle.vacate] at hk
    obtain ⟨rfl, hn⟩ := hf.home k (by simpa [Chronicle.vacate, hkj] using hk)
    refine ⟨rfl, fun hn' => ?_⟩
    rcases hgone.1 hn' with hinside | hn'
    · exact hkj (hf.home j hinside).1.symm
    · exact hn hn'
  · rw [hgone, not_or] at hn
    obtain ⟨hinside, hvacated⟩ := hf.present hn.2
    have hij : i ≠ j := by
      rintro rfl
      exact hn.1 hinside
    exact ⟨by simpa [Chronicle.vacate, hij] using hinside,
      by simpa [Chronicle.vacate, hij] using hvacated⟩
  · rcases hgone.1 hn with hinside | hn
    · obtain ⟨rfl, hpresent⟩ := hf.home j hinside
      have hvacated := (hf.present hpresent).2
      simp [Chronicle.vacate, hvacated]
    · exact lt_of_lt_of_le (hf.past hn) hle

theorem Follows.run {x y : Chronicle × Heap} (hf : x.1.Follows n i v) (ht : x.1.Tells x.2)
    (run : Run x y) : y.1.Follows n i v := by
  induction run with
  | refl => exact hf
  | @tail y z run last ih =>
    have hty := ht.run run
    cases last with
    | insert c heap p => exact ih.make (hty.insert_slot p).1
    | dead c done => exact ih.vacate _
    | _ => exact ih

/-- As long as the slot was not vacated too often its generation is another one once the object is
gone. -/
theorem Follows.isAlive_iff (hf : c.Follows n i v) (ht : c.Tells heap)
    (few : c.vacated i < v + 2 ^ 32) :
    heap.isAlive ⟨i, UInt32.ofNat v⟩ = true ↔ n ∉ c.gone := by
  rw [Heap.isAlive_iff_outline]
  constructor
  · intro hslot hgone
    have hlt := hf.past hgone
    have hgeneration := congrArg UInt32.toNat (ht.slot i _ _ hslot).1
    simp only [UInt32.toNat_ofNat'] at hgeneration
    omega
  · intro hpresent
    obtain ⟨hinside, hvacated⟩ := hf.present hpresent
    cases houtline : heap.outline i with
    | none => simp [(ht.unused i houtline).2] at hinside
    | some s =>
      obtain ⟨g, b⟩ := s
      obtain ⟨rfl, rfl⟩ := ht.slot i g b houtline
      simp [hinside, hvacated]

end Chronicle

section

variable {w : World U}

theorem Refuses.of_eq {x : Act U (Option α)} {e : Raised} {env : Env U}
    (h : x env w = refusal e env w) : Refuses x e env w := by
  rw [Refuses, h]
  exact refusal_refuses e env w

theorem getIter_released (hp : w.heap.payload? h = none) (env : Env U) :
    Refuses (getIter h) ⟨.runtimeError, "iter() on a released object"⟩ env w := by
  apply Refuses.of_eq
  simp only [getIter, bind_run, Act.heap, hp]
  rfl

theorem iterNext_released (hp : w.heap.payload? h = none) (env : Env U) :
    Refuses (iterNext h) ⟨.runtimeError, "next() on a released object"⟩ env w := by
  apply Refuses.of_eq
  simp only [iterNext, bind_run, Act.heap, hp]
  rfl

theorem withState_released (hp : w.heap.payload? h = none) (kind : StateKind)
    (units : α → List Handle) (f : kind.State → Act U (kind.State × α)) (env : Env U) :
    Refuses (withState h kind units f) ⟨.runtimeError, "access to a released object"⟩ env w := by
  apply Refuses.of_eq
  simp only [withState, bind_run, Act.heap, hp]
  rfl

theorem isCallable_released (hp : w.heap.payload? h = none) (env : Env U) :
    isCallable h env w = .done false w := by
  simp only [isCallable, askPayload, bind_run, Act.heap, hp]
  rfl

theorem acquire_released (he : w.heap.entryAt? h = none) (env : Env U) :
    acquire h env w = .fault (.acquireReleased h) w := by
  simp [acquire, bind_run, updateHeap?, Heap.increment?, he, Act.fault]

theorem releaseNow_released (he : w.heap.entryAt? h = none) (env : Env U) :
    releaseNow h env w = .fault (.doubleRelease h) w := by
  simp [releaseNow, bind_run, updateHeap?, Heap.decrement?, he, Act.fault]

end

/-- All that can be had of a handle whose object is gone, whatever user code does: nothing, an error
or a fault, and in no case another heap. -/
structure Heap.Forgets (heap : Heap) (h : Handle) : Prop where
  isAlive : heap.isAlive h = false
  refcount : heap.refcount h = 0
  typeName : heap.typeName h = "<released>"
  isCallable : ∀ {U : Type} (env : Env U) (w : World U), w.heap = heap →
    isCallable h env w = .done false w
  getIter : ∀ {U : Type} (env : Env U) (w : World U), w.heap = heap →
    Refuses (getIter h) ⟨.runtimeError, "iter() on a released object"⟩ env w
  iterNext : ∀ {U : Type} (env : Env U) (w : World U), w.heap = heap →
    Refuses (iterNext h) ⟨.runtimeError, "next() on a released object"⟩ env w
  invoke : ∀ {U : Type} (env : Env U) (w : World U) (arguments : Handle), w.heap = heap →
    Refuses (invoke h arguments) ⟨.runtimeError, "call of a released object"⟩ env w
  withState : ∀ {U α : Type} (env : Env U) (w : World U) (kind : StateKind)
    (units : α → List Handle) (f : kind.State → Act U (kind.State × α)), w.heap = heap →
    Refuses (withState h kind units f) ⟨.runtimeError, "access to a released object"⟩ env w
  acquire : ∀ {U : Type} (env : Env U) (w : World U), w.heap = heap →
    acquire h env w = .fault (.acquireReleased h) w
  releaseNow : ∀ {U : Type} (env : Env U) (w : World U), w.heap = heap →
    releaseNow h env w = .fault (.doubleRelease h) w

theorem Heap.forgets (he : heap.entryAt? h = none) : heap.Forgets h := by
  have hp : heap.payload? h = none := by simp [payload?, he]
  exact
    { isAlive := by simp [Heap.isAlive, he]
      refcount := by simp [Heap.refcount, he]
      typeName := by simp [Heap.typeName, hp]
      isCallable := fun env w hw => isCallable_released (hw ▸ hp) env
      getIter := fun env w hw => getIter_released (hw ▸ hp) env
      iterNext := fun env w hw => iterNext_released (hw ▸ hp) env
      invoke := fun env w arguments hw => .of_eq (invoke_released (hw ▸ hp) env)
      withState := fun env w kind units f hw => withState_released (hw ▸ hp) kind units f env
      acquire := fun env w hw => acquire_released (hw ▸ he) env
      releaseNow := fun env w hw => releaseNow_released (hw ▸ he) env }

/-- The handle names the object that was made after `c₀`, or nothing, until its slot was vacated
2 ^ 32 times. -/
def Chronicle.NamesOnly (c₀ c : Chronicle) (h : Handle) (heap : Heap) : Prop :=
  c.vacated h.index < c₀.vacated h.index + 2 ^ 32 →
    (heap.isAlive h = true ↔ c₀.made ∉ c.gone) ∧ (c₀.made ∈ c.gone → heap.Forgets h)

theorem Chronicle.Run.namesOnly {c₀ c : Chronicle} (before : Run (.blank, .empty) (c₀, heap₀))
    (after : Run (c₀.make (heap₀.insert p).1.index, (heap₀.insert p).2) (c, heap)) :
    c₀.NamesOnly c (heap₀.insert p).1 heap := by
  intro few
  have ht₀ := blank_tells.run before
  have hmade : Tells _ _ := ht₀.insert p
  have ht : c.Tells heap := hmade.run after
  have hf := (Follows.made ht₀ (heap₀.insert p).1.index).run hmade after
  have halive := hf.isAlive_iff ht few
  rw [← (ht₀.insert_slot p).2] at halive
  refine ⟨halive, fun hgone => Heap.forgets ?_⟩
  cases he : heap.entryAt? (heap₀.insert p).1 with
  | none => rfl
  | some e => exact absurd hgone (halive.1 ((Heap.isAlive_iff heap _).2 ⟨e, he⟩))

/-- An object is made after any history, and anything may happen after that. Its handle is alive
exactly as long as the object is there; then nothing can be had of it, whatever else the slot holds.
Every world that comes up in a program has such a history, which goes on with whatever becomes of
the heap. -/
theorem Chronicle.Run.stale_stays_dead :
    (∀ (c₀ c : Chronicle) (heap₀ heap : Heap) (p : Payload), Run (.blank, .empty) (c₀, heap₀) →
      Run (c₀.make (heap₀.insert p).1.index, (heap₀.insert p).2) (c, heap) →
      c₀.NamesOnly c (heap₀.insert p).1 heap) ∧
    ∀ (w : World Machine.Client) (p : Payload) (heap : Heap), Machine.Program.Visited w →
      Relation.ReflTransGen Heap.Step (w.heap.insert p).2 heap →
      ∃ c₀ c, Run (.blank, .empty) (c₀, w.heap) ∧
        Run (c₀.make (w.heap.insert p).1.index, (w.heap.insert p).2) (c, heap) ∧
        c₀.NamesOnly c (w.heap.insert p).1 heap := by
  refine ⟨fun _ _ _ _ _ before after => before.namesOnly after, fun w p heap hv steps => ?_⟩
  obtain ⟨c₀, before⟩ := Chronicle.exists_run .blank hv.reached
  obtain ⟨c, after⟩ := Chronicle.exists_run (c₀.make (w.heap.insert p).1.index) steps
  exact ⟨c₀, c, before, after, before.namesOnly after⟩

def vacatedHeap : Heap := ⟨#[⟨1, none⟩], [0], ⟨0, 1, 1, 1, 1⟩⟩

/-- The first object goes, and another takes its slot. -/
theorem Chronicle.Run.reused_slot_stale :
    (vacatedHeap.insert (.bool true)).2.isAlive ⟨0, 1⟩ = true ∧
      (vacatedHeap.insert (.bool true)).2.Forgets ⟨0, 0⟩ := by
  have hdead : (Heap.empty.insert .none).2.decrement? ⟨0, 0⟩ =
      some (.dead .none, vacatedHeap) := rfl
  have after : Run (blank.make 0, (Heap.empty.insert .none).2)
      (((blank.make 0).vacate 0).make 0, (vacatedHeap.insert (.bool true)).2) :=
    (Relation.ReflTransGen.single (.dead (blank.make 0) hdead)).tail
      (.insert ((blank.make 0).vacate 0) vacatedHeap (.bool true))
  exact ⟨by decide, (Run.stale_stays_dead.1 _ _ _ _ .none .refl after (by decide)).2 (by decide)⟩

end Causeway
