import Causeway.Proofs.HeapOrder
import Causeway.Action
import Mathlib.Data.List.Nodup
import Mathlib.Data.List.Perm.Basic
import Mathlib.Logic.Function.Basic
import Mathlib.Logic.Relation
/-!
# Where native states are

A native object is made with one state. From then on the state is in the object, on loan to a call,
or handed to a dealloc slot. No program writes down which, so a custody does it beside the world. It
tells states apart by number: a handle is no name for one, since it may come to mean another object
while a call on the first is still at work.

A step of a custody is one operation of the heap, with what it does to the places of states. It is a
relation, and what it says of a world is checked against the heap: `Custody.Sound` is kept by every
step, and whatever is claimed of the places of states is read off from it.
-/
set_option autoImplicit false

namespace Causeway

variable {U : Type}

namespace Payload

/-- Whether the payload of a native object has its state. Other payloads have none. -/
def hasState? : Payload → Option Bool
  | native _ s => some s.isSome
  | _ => Option.none

theorem hasState?_eq_true {p : Payload} :
    p.hasState? = some true ↔ ∃ d s, p = native d (some s) := by
  cases p with
  | native d s => cases s <;> simp [hasState?]
  | _ => simp [hasState?]

theorem hasState?_eq_false {p : Payload} :
    p.hasState? = some false ↔ ∃ d, p = native d Option.none := by
  cases p with
  | native d s => cases s <;> simp [hasState?]
  | _ => simp [hasState?]

end Payload

namespace Heap

def hasState? (heap : Heap) (h : Handle) : Option Bool :=
  (heap.payload? h).bind Payload.hasState?

variable {heap next : Heap} {h : Handle} {p p' : Payload}

theorem hasState?_of_payload? (found : heap.payload? h = some p) :
    heap.hasState? h = p.hasState? := by
  simp [hasState?, found]

theorem hasState?_eq_true :
    heap.hasState? h = some true ↔ ∃ d s, heap.payload? h = some (.native d (some s)) := by
  simp [hasState?, Option.bind_eq_some_iff, Payload.hasState?_eq_true]

theorem hasState?_eq_false :
    heap.hasState? h = some false ↔ ∃ d, heap.payload? h = some (.native d none) := by
  simp [hasState?, Option.bind_eq_some_iff, Payload.hasState?_eq_false]

theorem insert_hasState? (ho : heap.InOrder) (p : Payload) (k : Handle) :
    (heap.insert p).2.hasState? k =
      if k = (heap.insert p).1 then p.hasState? else heap.hasState? k := by
  unfold hasState?
  rw [insert_payload? ho]
  split <;> rfl

theorem setPayload_hasState? (found : heap.payload? h = some p) (p' : Payload) (k : Handle) :
    (heap.setPayload h p').hasState? k = if k = h then p'.hasState? else heap.hasState? k := by
  unfold hasState?
  rw [setPayload_payload? found]
  split <;> rfl

theorem decrement?_dead_hasState? (done : heap.decrement? h = some (.dead p, next)) (k : Handle) :
    next.hasState? k = if k = h then none else heap.hasState? k := by
  unfold hasState?
  rw [(decrement?_dead_payload? done).2]
  split <;> rfl

end Heap

/-- How the client of the library keeps track of states. -/
structure Custodian (U : Type) where
  /-- How many states it was told are gone. -/
  told : U → Nat
  /-- The code that is a dealloc slot. -/
  deals : U → CodeId → Prop

def Descriptor.Known (C : Custodian U) (c : U) (d : Descriptor) : Prop :=
  ∀ code, d.dealloc = .user code → C.deals c code

structure Custody where
  /-- How many states there have been. They are numbered from 0. -/
  made : Nat
  /-- The state that a live native object was made with. -/
  objects : Handle → Option Nat
  /-- Active calls that were lent a state, the latest first. -/
  lent : List (Handle × Nat)
  /-- What was handed to dealloc slots, the latest first. -/
  handed : List Nat
  /-- That part of it of which the client was not told yet that it is gone. -/
  disposing : List Nat

inductive Custody.Place where
  | object (h : Handle)
  /-- An active call. -/
  | call (i : Nat)
  /-- A hand-over to a dealloc slot. -/
  | dealloc (i : Nat)

namespace Custody

def start : Custody := ⟨0, fun _ => none, [], [], []⟩

def instantiate (g : Custody) (h : Handle) : Custody :=
  { g with made := g.made + 1, objects := Function.update g.objects h (some g.made) }

def vanish (g : Custody) (h : Handle) : Custody :=
  { g with objects := Function.update g.objects h none }

def hand (g : Custody) (t : Nat) : Custody :=
  { g with handed := t :: g.handed, disposing := t :: g.disposing }

def away (g : Custody) : List Nat := g.lent.map (·.2) ++ g.handed

def At (g : Custody) (heap : Heap) (t : Nat) : Place → Prop
  | .object h => g.objects h = some t ∧ heap.hasState? h = some true
  | .call i => ∃ h, g.lent[i]? = some (h, t)
  | .dealloc i => g.handed[i]? = some t

inductive Step (C : Custodian U) : Custody × World U → Custody × World U → Prop where
  | aside {g : Custody} {w w' : World U} (heap : w'.heap = w.heap)
      (told : C.told w'.client = C.told w.client)
      (deals : ∀ code, C.deals w.client code → C.deals w'.client code) : Step C (g, w) (g, w')
  | insert (g : Custody) (w : World U) {p : Payload} (plain : p.hasState? = none) :
      Step C (g, w) (g, { w with heap := (w.heap.insert p).2 })
  | instantiate (g : Custody) (w : World U) {d : Descriptor} (s : NativeState)
      (known : d.Known C w.client) :
      Step C (g, w) (g.instantiate (w.heap.insert (.native d (some s))).1,
        { w with heap := (w.heap.insert (.native d (some s))).2 })
  | increment {g : Custody} {w : World U} {h : Handle} {n : Nat} {heap : Heap}
      (done : w.heap.increment? h = some (n, heap)) : Step C (g, w) (g, { w with heap })
  | decrement {g : Custody} {w : World U} {h : Handle} {n : Nat} {heap : Heap}
      (done : w.heap.decrement? h = some (.alive n, heap)) : Step C (g, w) (g, { w with heap })
  /-- An object dies that has no state, or whose state is away. -/
  | vanish {g : Custody} {w : World U} {h : Handle} {p : Payload} {heap : Heap}
      (done : w.heap.decrement? h = some (.dead p, heap)) (bare : p.hasState? ≠ some true) :
      Step C (g, w) (g.vanish h, { w with heap })
  /-- An object dies that has its state. -/
  | retire {g : Custody} {w : World U} {h : Handle} {d : Descriptor} {s : NativeState} {heap : Heap}
      {t : Nat} (done : w.heap.decrement? h = some (.dead (.native d (some s)), heap))
      (own : g.objects h = some t) : Step C (g, w) ((g.vanish h).hand t, { w with heap })
  | change {g : Custody} {w : World U} {h : Handle} {p p' : Payload}
      (found : w.heap.payload? h = some p) (plain : p.hasState? = none)
      (plain' : p'.hasState? = none) :
      Step C (g, w) (g, { w with heap := w.heap.setPayload h p' })
  | lend {g : Custody} {w : World U} {h : Handle} {d : Descriptor} {s : NativeState} {t : Nat}
      (found : w.heap.payload? h = some (.native d (some s))) (own : g.objects h = some t) :
      Step C (g, w) ({ g with lent := (h, t) :: g.lent },
        { w with heap := w.heap.setPayload h (.native d none) })
  /-- The latest call puts the state back. -/
  | back {g : Custody} {w : World U} {h : Handle} {d : Descriptor} {t : Nat}
      {rest : List (Handle × Nat)} (latest : g.lent = (h, t) :: rest)
      (found : w.heap.payload? h = some (.native d none)) (s : NativeState) :
      Step C (g, w) ({ g with lent := rest },
        { w with heap := w.heap.setPayload h (.native d (some s)) })
  /-- The latest call finds no object that waits for the state. -/
  | orphan {g : Custody} {w : World U} {h : Handle} {t : Nat} {rest : List (Handle × Nat)}
      (latest : g.lent = (h, t) :: rest) (gone : w.heap.hasState? h ≠ some false) :
      Step C (g, w) (hand { g with lent := rest } t, w)
  /-- The client is told that what was handed over last is gone. -/
  | report {g : Custody} {w w' : World U} {t : Nat} {rest : List Nat}
      (latest : g.disposing = t :: rest) (heap : w'.heap = w.heap)
      (told : C.told w'.client = C.told w.client + 1)
      (deals : ∀ code, C.deals w.client code → C.deals w'.client code) :
      Step C (g, w) ({ g with disposing := rest }, w')

def Path (C : Custodian U) : Custody × World U → Custody × World U → Prop :=
  Relation.ReflTransGen (Step C)

structure Sound (C : Custodian U) (g : Custody) (w : World U) : Prop where
  inOrder : w.heap.InOrder
  native : ∀ h, (g.objects h).isSome = (w.heap.hasState? h).isSome
  distinct : ∀ h k t, g.objects h = some t → g.objects k = some t → h = k
  numbered : ∀ h t, g.objects h = some t → t < g.made
  away_numbered : ∀ t ∈ g.away, t < g.made
  once : g.away.Nodup
  inPlace : ∀ h t, g.objects h = some t → w.heap.hasState? h = some true → t ∉ g.away
  /-- An object without its state waits for the latest call on it. -/
  waiting : ∀ h, w.heap.hasState? h = some false → ∃ t, g.objects h = some t ∧
    g.lent.lookup h = some t
  borrowed : ∀ h k t, (h, t) ∈ g.lent → g.objects k = some t → k = h
  kept : ∀ t < g.made, (∃ h, g.objects h = some t) ∨ t ∈ g.away
  told : C.told w.client + g.disposing.length = g.handed.length
  known : ∀ h d s, w.heap.payload? h = some (.native d s) → d.Known C w.client

variable {C : Custodian U} {g : Custody} {w w' : World U} {h : Handle} {t : Nat}

theorem mem_away_of_lent {k : Handle} (hk : (k, t) ∈ g.lent) : t ∈ g.away :=
  List.mem_append_left _ (List.mem_map.2 ⟨(k, t), hk, rfl⟩)

theorem mem_away_of_lookup (hk : g.lent.lookup h = some t) : t ∈ g.away := by
  obtain ⟨l₁, l₂, heq, _⟩ := List.lookup_eq_some_iff.1 hk
  exact mem_away_of_lent (k := h) (by simp [heq])

theorem away_hand (g : Custody) (t : Nat) : (g.hand t).away.Perm (t :: g.away) :=
  List.perm_middle

namespace Sound

theorem objects_eq_none (hg : g.Sound C w) : g.objects h = none ↔ w.heap.hasState? h = none := by
  have hnative := hg.native h
  cases hh : g.objects h <;> cases hw : w.heap.hasState? h <;> simp_all

theorem exists_object (hg : g.Sound C w) {b : Bool} (hw : w.heap.hasState? h = some b) :
    ∃ t, g.objects h = some t := by
  refine Option.isSome_iff_exists.1 ?_
  rw [hg.native, hw]
  rfl

theorem exists_hasState (hg : g.Sound C w) (hh : g.objects h = some t) :
    ∃ b, w.heap.hasState? h = some b := by
  refine Option.isSome_iff_exists.1 ?_
  rw [← hg.native, hh]
  rfl

/-- The latest call on an object that waits for its state has it. -/
theorem objects_of_latest (hg : g.Sound C w) {rest : List (Handle × Nat)}
    (latest : g.lent = (h, t) :: rest) (hw : w.heap.hasState? h = some false) :
    g.objects h = some t := by
  obtain ⟨u, hu, hlookup⟩ := hg.waiting h hw
  rw [latest, List.lookup_cons_self] at hlookup
  rw [hu, hlookup]

/-- Whether it has its state or not, an object keeps its descriptor. -/
theorem known_setPayload (hg : g.Sound C w) {d : Descriptor} {s : Option NativeState}
    (found : w.heap.payload? h = some (.native d s)) (s' : Option NativeState) (k : Handle)
    (d' : Descriptor) (s'' : Option NativeState)
    (hk : (w.heap.setPayload h (.native d s')).payload? k = some (.native d' s'')) :
    d'.Known C w.client := by
  rw [Heap.setPayload_payload? found] at hk
  split at hk
  · cases hk
    exact hg.known h d s found
  · exact hg.known k d' s'' hk

theorem known_dead (hg : g.Sound C w) {p : Payload} {heap : Heap}
    (done : w.heap.decrement? h = some (.dead p, heap)) (k : Handle) (d : Descriptor)
    (s : Option NativeState) (hk : heap.payload? k = some (.native d s)) : d.Known C w.client := by
  rw [(Heap.decrement?_dead_payload? done).2] at hk
  split at hk
  · cases hk
  · exact hg.known k d s hk

theorem unmoved (hg : g.Sound C w) (inOrder : w'.heap.InOrder)
    (same : ∀ h, w'.heap.hasState? h = w.heap.hasState? h)
    (told : C.told w'.client = C.told w.client)
    (known : ∀ h d s, w'.heap.payload? h = some (.native d s) → d.Known C w'.client) :
    g.Sound C w' where
  inOrder := inOrder
  native := fun h => by rw [same, hg.native]
  distinct := hg.distinct
  numbered := hg.numbered
  away_numbered := hg.away_numbered
  once := hg.once
  inPlace := fun h t hh hw => hg.inPlace h t hh (by rwa [same] at hw)
  waiting := fun h hw => hg.waiting h (by rwa [same] at hw)
  borrowed := hg.borrowed
  kept := hg.kept
  told := by rw [told, hg.told]
  known := known

theorem aside (hg : g.Sound C w) (heap : w'.heap = w.heap)
    (told : C.told w'.client = C.told w.client)
    (deals : ∀ code, C.deals w.client code → C.deals w'.client code) : g.Sound C w' := by
  refine hg.unmoved (heap ▸ hg.inOrder) (fun h => by rw [heap]) told fun h d s found code hd => ?_
  rw [heap] at found
  exact deals code (hg.known h d s found code hd)

variable {heap : Heap}

theorem instantiate (hg : g.Sound C w) (inOrder : heap.InOrder)
    (fresh : w.heap.hasState? h = none)
    (states : ∀ k, heap.hasState? k = if k = h then some true else w.heap.hasState? k)
    (known : ∀ k d s, heap.payload? k = some (.native d s) → d.Known C w.client) :
    (g.instantiate h).Sound C { w with heap } := by
  have hnone := hg.objects_eq_none.2 fresh
  have hself : (g.instantiate h).objects h = some g.made := Function.update_self ..
  have hother : ∀ k, k ≠ h → (g.instantiate h).objects k = g.objects k := fun k hk =>
    Function.update_of_ne hk ..
  have hnew : g.made ∉ g.away := fun hm => Nat.lt_irrefl _ (hg.away_numbered _ hm)
  have hold : ∀ k, g.objects k ≠ some g.made := fun k hk => Nat.lt_irrefl _ (hg.numbered _ _ hk)
  refine ⟨inOrder, fun k => ?_, fun k l t hk hl => ?_, fun k t hk => ?_,
    fun t ht => Nat.lt_succ_of_lt (hg.away_numbered t ht), hg.once, fun k t hk hw => ?_,
    fun k hw => ?_, fun k l t hk hl => ?_, fun t ht => ?_, hg.told, known⟩
  · by_cases hkh : k = h
    · rw [hkh, hself, states, if_pos rfl]
      rfl
    · rw [hother k hkh, states, if_neg hkh, hg.native]
  · by_cases hkh : k = h <;> by_cases hlh : l = h
    · rw [hkh, hlh]
    · rw [hkh, hself] at hk
      rw [hother l hlh, ← hk] at hl
      exact absurd hl (hold l)
    · rw [hlh, hself] at hl
      rw [hother k hkh, ← hl] at hk
      exact absurd hk (hold k)
    · rw [hother k hkh] at hk
      rw [hother l hlh] at hl
      exact hg.distinct k l t hk hl
  · by_cases hkh : k = h
    · rw [hkh, hself] at hk
      cases hk
      exact Nat.lt_succ_self _
    · rw [hother k hkh] at hk
      exact Nat.lt_succ_of_lt (hg.numbered k t hk)
  · by_cases hkh : k = h
    · rw [hkh, hself] at hk
      cases hk
      exact hnew
    · rw [hother k hkh] at hk
      rw [states, if_neg hkh] at hw
      exact hg.inPlace k t hk hw
  · rw [states] at hw
    by_cases hkh : k = h
    · rw [if_pos hkh] at hw
      cases hw
    · rw [if_neg hkh] at hw
      rw [hother k hkh]
      exact hg.waiting k hw
  · by_cases hlh : l = h
    · rw [hlh, hself] at hl
      cases hl
      exact absurd (mem_away_of_lent hk) hnew
    · rw [hother l hlh] at hl
      exact hg.borrowed k l t hk hl
  · obtain rfl | hlt := Nat.eq_or_lt_of_le (Nat.le_of_lt_succ ht)
    · exact .inl ⟨h, hself⟩
    · obtain ⟨k, hk⟩ | haway := hg.kept t hlt
      · refine .inl ⟨k, ?_⟩
        rwa [hother k]
        rintro rfl
        rw [hnone] at hk
        cases hk
      · exact .inr haway

/-- An object that dies is not the only place where its state could be found. -/
theorem vanish (hg : g.Sound C w) (inOrder : heap.InOrder)
    (states : ∀ k, heap.hasState? k = if k = h then none else w.heap.hasState? k)
    (known : ∀ k d s, heap.payload? k = some (.native d s) → d.Known C w.client)
    (elsewhere : w.heap.hasState? h ≠ some true) : (g.vanish h).Sound C { w with heap } := by
  have hself : (g.vanish h).objects h = none := Function.update_self ..
  have hother : ∀ k, k ≠ h → (g.vanish h).objects k = g.objects k := fun k hk =>
    Function.update_of_ne hk ..
  have hsub : ∀ k t, (g.vanish h).objects k = some t → k ≠ h ∧ g.objects k = some t := by
    intro k t hk
    have hkh : k ≠ h := by
      rintro rfl
      rw [hself] at hk
      cases hk
    exact ⟨hkh, by rwa [hother k hkh] at hk⟩
  refine ⟨inOrder, fun k => ?_, fun k l t hk hl => hg.distinct k l t (hsub k t hk).2 (hsub l t hl).2,
    fun k t hk => hg.numbered k t (hsub k t hk).2, hg.away_numbered, hg.once, fun k t hk hw => ?_,
    fun k hw => ?_, fun k l t hk hl => hg.borrowed k l t hk (hsub l t hl).2, fun t ht => ?_,
    hg.told, known⟩
  · by_cases hkh : k = h
    · rw [hkh, hself, states, if_pos rfl]
      rfl
    · rw [hother k hkh, states, if_neg hkh, hg.native]
  · rw [states, if_neg (hsub k t hk).1] at hw
    exact hg.inPlace k t (hsub k t hk).2 hw
  · rw [states] at hw
    by_cases hkh : k = h
    · rw [if_pos hkh] at hw
      cases hw
    · rw [if_neg hkh] at hw
      rw [hother k hkh]
      exact hg.waiting k hw
  · obtain ⟨k, hk⟩ | haway := hg.kept t ht
    · by_cases hkh : k = h
      · rw [hkh] at hk
        have hstate : w.heap.hasState? h = some false := by
          obtain ⟨b, hb⟩ := hg.exists_hasState hk
          cases b with
          | false => exact hb
          | true => exact absurd hb elsewhere
        obtain ⟨u, hu, hlookup⟩ := hg.waiting h hstate
        rw [hk] at hu
        cases hu
        exact .inr (mem_away_of_lookup hlookup)
      · exact .inl ⟨k, by rwa [hother k hkh]⟩
    · exact .inr haway

theorem lend (hg : g.Sound C w) (own : g.objects h = some t) (inOrder : heap.InOrder)
    (found : w.heap.hasState? h = some true)
    (states : ∀ k, heap.hasState? k = if k = h then some false else w.heap.hasState? k)
    (known : ∀ k d s, heap.payload? k = some (.native d s) → d.Known C w.client) :
    Sound C { g with lent := (h, t) :: g.lent } { w with heap } := by
  have hhere : t ∉ g.away := hg.inPlace h t own found
  refine ⟨inOrder, fun k => ?_, hg.distinct, hg.numbered, fun u hu => ?_,
    List.nodup_cons.2 ⟨hhere, hg.once⟩, fun k u hk hw hu => ?_, fun k hw => ?_,
    fun k l u hk hl => ?_, fun u hu => (hg.kept u hu).imp id (List.mem_cons_of_mem t), hg.told,
    known⟩
  · rw [hg.native, states]
    split
    · rename_i hkh
      rw [hkh, found]
      rfl
    · rfl
  · obtain rfl | hu := List.mem_cons.1 hu
    · exact hg.numbered h _ own
    · exact hg.away_numbered u hu
  · have hkh : k ≠ h := by
      rintro rfl
      rw [states, if_pos rfl] at hw
      cases hw
    rw [states, if_neg hkh] at hw
    obtain rfl | hu := List.mem_cons.1 hu
    · exact hkh (hg.distinct k h _ hk own)
    · exact hg.inPlace k u hk hw hu
  · rw [states] at hw
    by_cases hkh : k = h
    · exact ⟨t, by rw [hkh, own], by rw [hkh, List.lookup_cons_self]⟩
    · rw [if_neg hkh] at hw
      obtain ⟨u, hu, hlookup⟩ := hg.waiting k hw
      refine ⟨u, hu, ?_⟩
      rw [List.lookup_cons, beq_false_of_ne hkh]
      exact hlookup
  · obtain heq | hk := List.mem_cons.1 hk
    · cases heq
      exact hg.distinct l h _ hl own
    · exact hg.borrowed k l u hk hl

theorem back (hg : g.Sound C w) {rest : List (Handle × Nat)} (latest : g.lent = (h, t) :: rest)
    (inOrder : heap.InOrder) (found : w.heap.hasState? h = some false)
    (states : ∀ k, heap.hasState? k = if k = h then some true else w.heap.hasState? k)
    (known : ∀ k d s, heap.payload? k = some (.native d s) → d.Known C w.client) :
    Sound C { g with lent := rest } { w with heap } := by
  have own := hg.objects_of_latest latest found
  have haway : g.away = t :: away { g with lent := rest } := by simp [away, latest]
  have honce := hg.once
  rw [haway, List.nodup_cons] at honce
  have hsub : ∀ u ∈ away { g with lent := rest }, u ∈ g.away := fun u hu => by
    rw [haway]
    exact List.mem_cons_of_mem t hu
  refine ⟨inOrder, fun k => ?_, hg.distinct, hg.numbered, fun u hu => hg.away_numbered u (hsub u hu),
    honce.2, fun k u hk hw => ?_, fun k hw => ?_, fun k l u hk hl => ?_, fun u hu => ?_, hg.told,
    known⟩
  · rw [hg.native, states]
    split
    · rename_i hkh
      rw [hkh, found]
      rfl
    · rfl
  · by_cases hkh : k = h
    · rw [hkh, own] at hk
      cases hk
      exact honce.1
    · rw [states, if_neg hkh] at hw
      exact fun hu => hg.inPlace k u hk hw (hsub u hu)
  · rw [states] at hw
    by_cases hkh : k = h
    · rw [if_pos hkh] at hw
      cases hw
    · rw [if_neg hkh] at hw
      obtain ⟨u, hu, hlookup⟩ := hg.waiting k hw
      rw [latest, List.lookup_cons, beq_false_of_ne hkh] at hlookup
      exact ⟨u, hu, hlookup⟩
  · refine hg.borrowed k l u ?_ hl
    rw [latest]
    exact List.mem_cons_of_mem _ hk
  · obtain hk | hu := hg.kept u hu
    · exact .inl hk
    · rw [haway] at hu
      obtain rfl | hu := List.mem_cons.1 hu
      · exact .inl ⟨h, own⟩
      · exact .inr hu

theorem orphan (hg : g.Sound C w) {rest : List (Handle × Nat)} (latest : g.lent = (h, t) :: rest)
    (gone : w.heap.hasState? h ≠ some false) : (hand { g with lent := rest } t).Sound C w := by
  have hperm : (hand { g with lent := rest } t).away.Perm g.away := by
    refine (away_hand _ t).trans (List.Perm.of_eq ?_)
    simp [away, latest]
  have hmem : ∀ u, u ∈ (hand { g with lent := rest } t).away ↔ u ∈ g.away := fun u => hperm.mem_iff
  refine ⟨hg.inOrder, hg.native, hg.distinct, hg.numbered,
    fun u hu => hg.away_numbered u ((hmem u).1 hu), hperm.nodup_iff.2 hg.once,
    fun k u hk hw hu => hg.inPlace k u hk hw ((hmem u).1 hu), fun k hw => ?_, fun k l u hk hl => ?_,
    fun u hu => (hg.kept u hu).imp id (hmem u).2, ?_, hg.known⟩
  · have hkh : k ≠ h := by
      rintro rfl
      exact gone hw
    obtain ⟨u, hu, hlookup⟩ := hg.waiting k hw
    rw [latest, List.lookup_cons, beq_false_of_ne hkh] at hlookup
    exact ⟨u, hu, hlookup⟩
  · refine hg.borrowed k l u ?_ hl
    rw [latest]
    exact List.mem_cons_of_mem _ hk
  · have htold := hg.told
    simp only [hand, List.length_cons]
    omega

theorem report (hg : g.Sound C w) {rest : List Nat} (latest : g.disposing = t :: rest)
    (heap : w'.heap = w.heap) (told : C.told w'.client = C.told w.client + 1)
    (deals : ∀ code, C.deals w.client code → C.deals w'.client code) :
    Sound C { g with disposing := rest } w' := by
  have htold : C.told w.client + (rest.length + 1) = g.handed.length := by
    rw [← hg.told, latest, List.length_cons]
  refine ⟨heap ▸ hg.inOrder, fun k => by rw [heap, hg.native], hg.distinct, hg.numbered,
    hg.away_numbered, hg.once, fun k u hk hw => hg.inPlace k u hk (by rwa [heap] at hw),
    fun k hw => hg.waiting k (by rwa [heap] at hw), hg.borrowed, hg.kept, ?_, fun k d s found => ?_⟩
  · rw [told]
    change _ + rest.length = g.handed.length
    omega
  · rw [heap] at found
    exact fun code hd => deals code (hg.known k d s found code hd)

/-- As if the state were lent before and its object gone when it came back. -/
theorem retire (hg : g.Sound C w) {d : Descriptor} {s : NativeState}
    (done : w.heap.decrement? h = some (.dead (.native d (some s)), heap))
    (own : g.objects h = some t) : ((g.vanish h).hand t).Sound C { w with heap } := by
  have found := (Heap.decrement?_dead_payload? done).1
  have hset := Heap.setPayload_hasState? found (.native d none)
  have hlent := hg.lend own (Heap.setPayload_inOrder hg.inOrder h (.native d none))
    (Heap.hasState?_of_payload? found) hset (hg.known_setPayload found none)
  have hstates : ∀ k, heap.hasState? k =
      if k = h then none else (w.heap.setPayload h (.native d none)).hasState? k := by
    intro k
    rw [Heap.decrement?_dead_hasState? done, hset]
    split <;> rfl
  have hbare : (w.heap.setPayload h (.native d none)).hasState? h ≠ some true := by
    rw [hset, if_pos rfl]
    simp [Payload.hasState?]
  have hdead := hlent.vanish (h := h) (Heap.decrement?_inOrder done hg.inOrder) hstates
    (hg.known_dead done) hbare
  refine hdead.orphan rfl ?_
  change heap.hasState? h ≠ some false
  rw [hstates, if_pos rfl]
  simp

end Sound

theorem Step.sound {x y : Custody × World U} (s : Step C x y) (hg : x.1.Sound C x.2) :
    y.1.Sound C y.2 := by
  cases s with
  | aside heap told deals => exact hg.aside heap told deals
  | insert g w plain =>
    rename_i p
    refine hg.unmoved (Heap.insert_inOrder hg.inOrder p) (fun k => ?_) rfl fun k d s found => ?_
    · rw [Heap.insert_hasState? hg.inOrder]
      split
      · rename_i hk
        rw [plain, hk, Heap.hasState?, Heap.insert_fresh_payload? hg.inOrder]
        rfl
      · rfl
    · rw [Heap.insert_payload? hg.inOrder] at found
      split at found
      · cases found
        cases plain
      · exact hg.known k d s found
  | instantiate g w s known =>
    refine hg.instantiate (Heap.insert_inOrder hg.inOrder _) ?_
      (Heap.insert_hasState? hg.inOrder _) fun k d' s' found => ?_
    · rw [Heap.hasState?, Heap.insert_fresh_payload? hg.inOrder]
      rfl
    · rw [Heap.insert_payload? hg.inOrder] at found
      split at found
      · cases found
        exact known
      · exact hg.known k d' s' found
  | increment done =>
    have hsame := Heap.increment?_payload? done
    refine hg.unmoved (Heap.increment?_inOrder done hg.inOrder) (fun k => ?_) rfl
      fun k d s found => hg.known k d s ((hsame k).symm.trans found)
    exact congrArg (·.bind Payload.hasState?) (hsame k)
  | decrement done =>
    have hsame := Heap.decrement?_alive_payload? done
    refine hg.unmoved (Heap.decrement?_inOrder done hg.inOrder) (fun k => ?_) rfl
      fun k d s found => hg.known k d s ((hsame k).symm.trans found)
    exact congrArg (·.bind Payload.hasState?) (hsame k)
  | vanish done bare =>
    refine hg.vanish (Heap.decrement?_inOrder done hg.inOrder) (Heap.decrement?_dead_hasState? done)
      (hg.known_dead done) ?_
    rwa [Heap.hasState?_of_payload? (Heap.decrement?_dead_payload? done).1]
  | retire done own => exact hg.retire done own
  | change found plain plain' =>
    refine hg.unmoved (Heap.setPayload_inOrder hg.inOrder _ _) (fun k => ?_) rfl
      fun k d s hk => ?_
    · rw [Heap.setPayload_hasState? found]
      split
      · rename_i hk
        rw [plain', hk, Heap.hasState?_of_payload? found, plain]
      · rfl
    · rw [Heap.setPayload_payload? found] at hk
      split at hk
      · cases hk
        cases plain'
      · exact hg.known k d s hk
  | lend found own =>
    exact hg.lend own (Heap.setPayload_inOrder hg.inOrder _ _) (Heap.hasState?_of_payload? found)
      (Heap.setPayload_hasState? found _) (hg.known_setPayload found none)
  | back latest found s =>
    exact hg.back latest (Heap.setPayload_inOrder hg.inOrder _ _)
      (Heap.hasState?_of_payload? found) (Heap.setPayload_hasState? found _)
      (hg.known_setPayload found (some s))
  | orphan latest gone => exact hg.orphan latest gone
  | report latest heap told deals => exact hg.report latest heap told deals

theorem Path.sound {x y : Custody × World U} (m : Path C x y) (hg : x.1.Sound C x.2) :
    y.1.Sound C y.2 := by
  induction m with
  | refl => exact hg
  | tail _ s ih => exact s.sound ih

theorem Path.deals {x y : Custody × World U} (m : Path C x y) {code : CodeId}
    (hd : C.deals x.2.client code) : C.deals y.2.client code := by
  induction m with
  | refl => exact hd
  | tail _ s ih =>
    cases s with
    | aside _ _ deals => exact deals code ih
    | report _ _ _ deals => exact deals code ih
    | _ => exact ih

theorem Path.handed {x y : Custody × World U} (m : Path C x y) : x.1.handed <:+ y.1.handed := by
  induction m with
  | refl => exact List.suffix_rfl
  | tail _ s ih =>
    cases s with
    | retire => exact ih.trans (List.suffix_cons ..)
    | orphan => exact ih.trans (List.suffix_cons ..)
    | _ => exact ih

namespace Sound

theorem start_sound {w : World U} (heap : w.heap = .empty) (told : C.told w.client = 0) :
    start.Sound C w := by
  have hnone : ∀ h, w.heap.payload? h = none := fun h => by
    simp [heap, Heap.payload?, Heap.entryAt?, Heap.empty]
  refine ⟨heap ▸ Heap.empty_inOrder, fun h => ?_, ?_, ?_, ?_, List.nodup_nil, ?_, fun h hw => ?_, ?_,
    fun t ht => absurd ht (Nat.not_lt_zero t), by rw [told]; rfl, fun h d s found => ?_⟩
  · rw [Heap.hasState?, hnone]
    rfl
  · exact fun _ _ _ h => by cases h
  · exact fun _ _ h => by cases h
  · exact fun _ h => absurd h List.not_mem_nil
  · exact fun _ _ h => by cases h
  · rw [Heap.hasState?, hnone] at hw
    cases hw
  · exact fun _ _ _ h => absurd h List.not_mem_nil
  · rw [hnone] at found
    cases found

theorem at_call_mem {i : Nat} (ht : g.At w.heap t (.call i)) :
    t ∈ g.lent.map (·.2) ∧ (g.lent.map (·.2))[i]? = some t := by
  obtain ⟨h, hi⟩ := ht
  have hi' : (g.lent.map (·.2))[i]? = some t := by
    rw [List.getElem?_map, hi]
    rfl
  exact ⟨List.mem_of_getElem? hi', hi'⟩

theorem exists_at_of_away (haway : t ∈ g.away) : ∃ p, g.At w.heap t p := by
  obtain hm | hm := List.mem_append.1 haway
  · obtain ⟨x, hx, rfl⟩ := List.mem_map.1 hm
    obtain ⟨i, hi⟩ := List.getElem?_of_mem hx
    exact ⟨.call i, x.1, hi⟩
  · obtain ⟨i, hi⟩ := List.getElem?_of_mem hm
    exact ⟨.dealloc i, hi⟩

theorem exists_at (hg : g.Sound C w) (ht : t < g.made) : ∃ p, g.At w.heap t p := by
  obtain ⟨h, hh⟩ | hm := hg.kept t ht
  · obtain ⟨b, hb⟩ := hg.exists_hasState hh
    cases b with
    | true => exact ⟨.object h, hh, hb⟩
    | false =>
      obtain ⟨u, hu, hlookup⟩ := hg.waiting h hb
      rw [hh] at hu
      cases hu
      exact exists_at_of_away (mem_away_of_lookup hlookup)
  · exact exists_at_of_away hm

/-- No state is in two places, nor twice with calls or dealloc slots. -/
theorem at_unique (hg : g.Sound C w) {p q : Place} (hp : g.At w.heap t p)
    (hq : g.At w.heap t q) : p = q := by
  have hnodup := hg.once
  rw [away, List.nodup_append'] at hnodup
  obtain ⟨hlent, hhanded, hapart⟩ := hnodup
  have hinPlace : ∀ h, g.At w.heap t (.object h) → t ∉ g.lent.map (·.2) ∧ t ∉ g.handed := by
    intro h hh
    have haway := hg.inPlace h t hh.1 hh.2
    rwa [away, List.mem_append, not_or] at haway
  have hcalls : ∀ i j, g.At w.heap t (.call i) → g.At w.heap t (.call j) → i = j := by
    intro i j hi hj
    have hlt := (List.getElem?_eq_some_iff.1 (at_call_mem hi).2).1
    exact (List.getElem?_inj hlt hlent).1 ((at_call_mem hi).2.trans (at_call_mem hj).2.symm)
  have hmem : ∀ i, g.At w.heap t (.dealloc i) → t ∈ g.handed := fun i hi =>
    List.mem_of_getElem? hi
  cases p with
  | object h =>
    cases q with
    | object k => rw [hg.distinct h k t hp.1 hq.1]
    | call j => exact absurd (at_call_mem hq).1 (hinPlace h hp).1
    | dealloc j => exact absurd (hmem j hq) (hinPlace h hp).2
  | call i =>
    cases q with
    | object k => exact absurd (at_call_mem hp).1 (hinPlace k hq).1
    | call j => rw [hcalls i j hp hq]
    | dealloc j => exact absurd (hmem j hq) (hapart (at_call_mem hp).1)
  | dealloc i =>
    cases q with
    | object k => exact absurd (hmem i hp) (hinPlace k hq).2
    | call j => exact absurd (hmem i hp) (hapart (at_call_mem hq).1)
    | dealloc j =>
      have hlt := (List.getElem?_eq_some_iff.1 (id hp : g.handed[i]? = some t)).1
      rw [(List.getElem?_inj hlt hhanded).1 (Eq.trans hp (Eq.symm hq))]

theorem existsUnique_at (hg : g.Sound C w) (ht : t < g.made) : ∃! p, g.At w.heap t p := by
  obtain ⟨p, hp⟩ := hg.exists_at ht
  exact ⟨p, hp, fun q hq => hg.at_unique hq hp⟩

end Sound

end Custody

end Causeway
