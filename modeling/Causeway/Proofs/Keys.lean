import Causeway.Proofs.Overlay
import Causeway.Proofs.OwnershipCycles
/-!
# Keys

Which objects have a key, and which key. Only tuples lead on to other objects. Where no tuple holds
itself, the search for a key ends before it is as deep as there are slots, with the key of a
hashable object or with the finding that there is none. Nothing else enters: objects given back
elsewhere on the heap leave the keys of those that stay as they were.
-/
set_option autoImplicit false

namespace Causeway

namespace Key

mutual

theorem same_iff : ∀ k l : Key, k.same l = true ↔ k = l
  | none, l => by cases l <;> simp [same]
  | int i, l => by cases l <;> simp [same]
  | float b, l => by cases l <;> simp [same]
  | str s, l => by cases l <;> simp [same]
  | tuple ks, l => by cases l <;> simp [same, allSame_iff ks]

theorem allSame_iff : ∀ ks ls : List Key, allSame ks ls = true ↔ ks = ls
  | [], ls => by cases ls <;> simp [allSame]
  | k :: ks, ls => by cases ls <;> simp [allSame, same_iff k, allSame_iff ks]

end

instance : LawfulBEq Key where
  rfl := (same_iff _ _).2 rfl
  eq_of_beq := (same_iff _ _).1

instance : DecidableEq Key := instDecidableEqOfLawfulBEq

end Key

namespace Heap

variable {heap next : Heap} {h k : Handle}

def scalarKey? : Payload → Option Key
  | .none => some .none
  | .bool b => some (.int (if b then 1 else 0))
  | .int i => some (.int i)
  | .float x => some (.ofFloat x)
  | .str s => some (.str s)
  | _ => none

/-- None, a number or a string, or a tuple of hashable objects. -/
inductive Hashable (heap : Heap) : Handle → Prop where
  | scalar {h : Handle} {p : Payload} {k : Key} (found : heap.payload? h = some p)
      (key : scalarKey? p = some k) : Hashable heap h
  | tuple {h : Handle} {slots : List (Option Handle)}
      (found : heap.payload? h = some (.tuple slots))
      (items : ∀ k ∈ slots.filterMap id, Hashable heap k) : Hashable heap h

def Nests (heap : Heap) (a b : Handle) : Prop :=
  ∃ slots, heap.payload? a = some (.tuple slots) ∧ b ∈ slots.filterMap id

/-- No tuple on the way down from the object holds itself. -/
def Unfolds (heap : Heap) (h : Handle) : Prop :=
  ∀ k, Relation.ReflTransGen heap.Nests h k → ¬ Relation.TransGen heap.Nests k k

/-- Looking for the key of a tuple goes on to an item if all items before it have keys. -/
def Consults (heap : Heap) (a b : Handle) : Prop :=
  ∃ slots before after, heap.payload? a = some (.tuple slots) ∧
    slots.filterMap id = before ++ b :: after ∧ ∀ k ∈ before, heap.Hashable k

def keyAt (heap : Heap) (h : Handle) : Option (Option Key) := heap.key? (heap.slots.size + 1) h

def Circles (r : Handle → Handle → Prop) (h : Handle) : Prop :=
  ∃ c, Relation.ReflTransGen r h c ∧ Relation.TransGen r c c

theorem Circles.mono {r r' : Handle → Handle → Prop} (hc : Circles r h)
    (hr : ∀ a b, r a b → r' a b) : Circles r' h := by
  obtain ⟨c, hreach, hcycle⟩ := hc
  exact ⟨c, Relation.ReflTransGen.mono hr _ _ hreach, Relation.TransGen.mono hr _ _ hcycle⟩

theorem Circles.step {r : Handle → Handle → Prop} (hc : Circles r h) : ∃ k, r h k ∧ Circles r k := by
  obtain ⟨c, hreach, hcycle⟩ := hc
  obtain rfl | ⟨k, hk, hreach⟩ := hreach.cases_head
  · obtain ⟨k, hk, hback⟩ := Relation.TransGen.head'_iff.1 hcycle
    exact ⟨k, hk, h, hback, hcycle⟩
  · exact ⟨k, hk, c, hreach, hcycle⟩

theorem card_alive_le (S : Finset Handle) (hS : ∀ h ∈ S, heap.isAlive h = true) :
    S.card ≤ heap.slots.size := by
  have hlt : ∀ h ∈ S, h.index ∈ Finset.range heap.slots.size := fun h hh => by
    obtain ⟨e, he⟩ := (isAlive_iff heap h).1 (hS h hh)
    rw [Finset.mem_range]
    exact (Array.getElem?_eq_some_iff.1 ((entryAt?_eq_some_iff heap h e).1 he)).1
  have hinj : Set.InjOn Handle.index S := fun h hh k hk hindex =>
    eq_of_index_eq (hS h hh) (hS k hk) hindex
  simpa using Finset.card_le_card_of_injOn Handle.index hlt hinj

section

variable {r : Handle → Handle → Prop} (stuck : Nat → Handle → Prop)

/-- The objects above are all different unless there is a cycle, so a search does not go down as
many levels as there are slots. -/
theorem circles_of_stuck_below (alive : ∀ a b, r a b → heap.isAlive a = true)
    (down : ∀ n h, stuck (n + 1) h → ∃ k, r h k ∧ stuck n k) (S : Finset Handle)
    (hS : ∀ a ∈ S, Relation.TransGen r a h) {n : Nat} (hn : heap.slots.size < n + S.card)
    (hh : stuck n h) : Circles r h := by
  induction n generalizing h S with
  | zero =>
    have hcard := card_alive_le S fun a ha => by
      obtain ⟨b, hab, -⟩ := Relation.TransGen.head'_iff.1 (hS a ha)
      exact alive a b hab
    omega
  | succ n ih =>
    by_cases hmem : h ∈ S
    · exact ⟨h, .refl, hS h hmem⟩
    · obtain ⟨k, hk, hstuck⟩ := down n h hh
      have habove : ∀ a ∈ Insert.insert h S, Relation.TransGen r a k := fun a ha => by
        obtain rfl | ha := Finset.mem_insert.1 ha
        · exact .single hk
        · exact (hS a ha).tail hk
      have hcard := Finset.card_insert_of_notMem hmem
      obtain ⟨c, hreach, hcycle⟩ := ih (Insert.insert h S) habove (by omega) hstuck
      exact ⟨c, .head hk hreach, hcycle⟩

/-- A search as deep as the heap has slots, and one more, is stuck only if no depth is enough. -/
theorem stuck_iff_circles (alive : ∀ a b, r a b → heap.isAlive a = true)
    (zero : ∀ h, stuck 0 h) (step : ∀ n h, stuck (n + 1) h ↔ ∃ k, r h k ∧ stuck n k) :
    (Circles r h → ∀ n, stuck n h) ∧ (stuck (heap.slots.size + 1) h → Circles r h) := by
  refine ⟨fun hc n => ?_,
    circles_of_stuck_below stuck alive (fun n h => (step n h).1) ∅ (by simp) (by simp)⟩
  induction n generalizing h with
  | zero => exact zero h
  | succ n ih =>
    obtain ⟨k, hk, hc⟩ := hc.step
    exact (step n h).2 ⟨k, hk, ih hc⟩

end

/-- Only an item behind others that have keys is ever looked at in vain. -/
theorem keysOf_eq_none {key : Handle → Option (Option Key)} {hs : List Handle}
    (hnone : keysOf key hs = none) : ∃ before k after, hs = before ++ k :: after ∧
      (∀ j ∈ before, ∃ x, key j = some (some x)) ∧ key k = none := by
  induction hs with
  | nil => cases hnone
  | cons k ks ih =>
    cases hk : key k with
    | none => exact ⟨[], k, ks, rfl, by simp, hk⟩
    | some found =>
      cases found with
      | none => simp [keysOf, hk] at hnone
      | some x =>
        simp only [keysOf, hk, Option.map_eq_none_iff] at hnone
        obtain ⟨before, j, after, rfl, hbefore, hj⟩ := ih hnone
        exact ⟨k :: before, j, after, rfl, List.forall_mem_cons.2 ⟨⟨x, hk⟩, hbefore⟩, hj⟩

theorem keysOf_append_none {key : Handle → Option (Option Key)} {before after : List Handle}
    {k : Handle} (hbefore : ∀ j ∈ before, key j ≠ some none) (hk : key k = none) :
    keysOf key (before ++ k :: after) = none := by
  induction before with
  | nil => simp [keysOf, hk]
  | cons j js ih =>
    have hrest := ih fun i hi => hbefore i (List.mem_cons_of_mem j hi)
    cases hj : key j with
    | none => simp [keysOf, hj]
    | some found =>
      cases found with
      | none => exact absurd hj (hbefore j List.mem_cons_self)
      | some x => simp [keysOf, hj, hrest]

theorem keysOf_eq_some {key : Handle → Option (Option Key)} {hs : List Handle} {ks : List Key} :
    keysOf key hs = some (some ks) ↔ List.Forall₂ (fun h k => key h = some (some k)) hs ks := by
  induction hs generalizing ks with
  | nil => simp [keysOf, eq_comm]
  | cons h hs ih =>
    rw [List.forall₂_cons_left_iff]
    cases hkey : key h with
    | none => simp [keysOf, hkey]
    | some found =>
      cases found with
      | none => simp [keysOf, hkey]
      | some k =>
        simp only [keysOf, hkey, Option.some.injEq, Option.map_eq_some_iff]
        constructor
        · rintro ⟨found, hfound, ls, rfl, rfl⟩
          exact ⟨k, ls, rfl, ih.1 hfound, rfl⟩
        · rintro ⟨_, ls, rfl, hls, rfl⟩
          exact ⟨some ls, ih.2 hls, ls, rfl, rfl⟩

theorem keysOf_congr {key key' : Handle → Option (Option Key)} {hs : List Handle}
    (hsame : ∀ h ∈ hs, key' h = key h) : keysOf key' hs = keysOf key hs := by
  induction hs with
  | nil => rfl
  | cons h hs ih =>
    have hrest := ih fun k hk => hsame k (List.mem_cons_of_mem _ hk)
    simp only [keysOf, hsame h List.mem_cons_self, hrest]

theorem key?_scalar {p : Payload} {key : Key} (n : Nat) (found : heap.payload? h = some p)
    (hkey : scalarKey? p = some key) : heap.key? (n + 1) h = some (some key) := by
  cases p <;> simp [scalarKey?] at hkey <;> simp [key?, found, hkey]

theorem key?_tuple {slots : List (Option Handle)} (n : Nat)
    (found : heap.payload? h = some (.tuple slots)) :
    heap.key? (n + 1) h =
      (keysOf (heap.key? n) (slots.filterMap id)).map fun ks => ks.map .tuple := by
  simp only [key?, found]

theorem key?_other (n : Nat) (hscalar : ∀ p, heap.payload? h = some p → scalarKey? p = none)
    (htuple : ∀ slots, heap.payload? h ≠ some (.tuple slots)) :
    heap.key? (n + 1) h = some none := by
  cases found : heap.payload? h with
  | none => simp [key?, found]
  | some p =>
    have hscalar := hscalar p found
    cases p with
    | tuple slots => exact absurd found (htuple slots)
    | none | bool b | int i | float x | str s => cases hscalar
    | _ => simp [key?, found]

theorem hashable_of_key? {n : Nat} {key : Key} (hkey : heap.key? n h = some (some key)) :
    heap.Hashable h := by
  induction n generalizing h key with
  | zero => cases hkey
  | succ n ih =>
    by_cases htuple : ∃ slots, heap.payload? h = some (.tuple slots)
    · obtain ⟨slots, found⟩ := htuple
      rw [key?_tuple n found, Option.map_eq_some_iff] at hkey
      obtain ⟨found', hkeys, hkey⟩ := hkey
      obtain ⟨ks, rfl, -⟩ := Option.map_eq_some_iff.1 hkey
      refine .tuple found fun k hk => ?_
      have hpairs := keysOf_eq_some.1 hkeys
      obtain ⟨i, hi, rfl⟩ := List.getElem_of_mem hk
      exact ih (hpairs.get hi (hpairs.length_eq ▸ hi))
    · by_cases hscalar : ∃ p key, heap.payload? h = some p ∧ scalarKey? p = some key
      · obtain ⟨p, key, found, hkey⟩ := hscalar
        exact .scalar found hkey
      · push Not at htuple hscalar
        rw [key?_other n (fun p found => Option.eq_none_iff_forall_ne_some.2 (hscalar p · found))
          htuple] at hkey
        cases hkey

theorem keysOf_eq_some_none {key : Handle → Option (Option Key)} {hs : List Handle}
    (hnone : keysOf key hs = some none) : ∃ k ∈ hs, key k = some none := by
  induction hs with
  | nil => cases hnone
  | cons k ks ih =>
    cases hk : key k with
    | none => simp [keysOf, hk] at hnone
    | some found =>
      cases found with
      | none => exact ⟨k, List.mem_cons_self, hk⟩
      | some key =>
        simp only [keysOf, hk, Option.map_eq_some_iff] at hnone
        obtain ⟨found, hfound, hnone⟩ := hnone
        obtain rfl := Option.map_eq_none_iff.1 hnone
        obtain ⟨j, hj, hnone⟩ := ih hfound
        exact ⟨j, List.mem_cons_of_mem _ hj, hnone⟩

theorem Hashable.key?_ne (hh : heap.Hashable h) (n : Nat) : heap.key? n h ≠ some none := by
  induction hh generalizing n with
  | scalar found key =>
    cases n with
    | zero => simp [key?]
    | succ n => simp [key?_scalar n found key]
  | tuple found _ ih =>
    cases n with
    | zero => simp [key?]
    | succ n =>
      intro hnone
      rw [key?_tuple n found, Option.map_eq_some_iff] at hnone
      obtain ⟨keys, hkeys, hnone⟩ := hnone
      obtain rfl := Option.map_eq_none_iff.1 hnone
      obtain ⟨k, hk, hnone⟩ := keysOf_eq_some_none hkeys
      exact ih k hk n hnone

theorem Consults.nests (hk : heap.Consults h k) : heap.Nests h k := by
  obtain ⟨slots, before, after, found, hslots, -⟩ := hk
  exact ⟨slots, found, hslots ▸ List.mem_append_right _ List.mem_cons_self⟩

theorem Nests.isAlive (hk : heap.Nests h k) : heap.isAlive h = true := by
  obtain ⟨slots, found, hk⟩ := hk
  exact Owns.isAlive ⟨_, found, hk⟩

theorem key?_succ_eq_none (n : Nat) (h : Handle) :
    heap.key? (n + 1) h = none ↔ ∃ k, heap.Consults h k ∧ heap.key? n k = none := by
  constructor
  · intro hnone
    by_cases htuple : ∃ slots, heap.payload? h = some (.tuple slots)
    · obtain ⟨slots, found⟩ := htuple
      rw [key?_tuple n found, Option.map_eq_none_iff] at hnone
      obtain ⟨before, k, after, hslots, hbefore, hnone⟩ := keysOf_eq_none hnone
      refine ⟨k, ⟨slots, before, after, found, hslots, fun j hj => ?_⟩, hnone⟩
      obtain ⟨x, hx⟩ := hbefore j hj
      exact hashable_of_key? hx
    · by_cases hscalar : ∃ p key, heap.payload? h = some p ∧ scalarKey? p = some key
      · obtain ⟨p, key, found, hkey⟩ := hscalar
        rw [key?_scalar n found hkey] at hnone
        cases hnone
      · push Not at htuple hscalar
        rw [key?_other n (fun p found => Option.eq_none_iff_forall_ne_some.2 (hscalar p · found))
          htuple] at hnone
        cases hnone
  · rintro ⟨k, ⟨slots, before, after, found, hslots, hbefore⟩, hnone⟩
    rw [key?_tuple n found, hslots, keysOf_append_none (fun j hj => (hbefore j hj).key?_ne n) hnone]
    rfl

/-- The search for a key is as deep as it ever needs to be: it fails only on its way round a cycle,
and then at every depth. -/
theorem key?_circles : (Circles heap.Consults h → ∀ n, heap.key? n h = none) ∧
    (heap.keyAt h = none → Circles heap.Consults h) :=
  stuck_iff_circles (fun n h => heap.key? n h = none) (fun _ _ hk => hk.nests.isAlive)
    (fun _ => rfl) key?_succ_eq_none

theorem Unfolds.keyAt_ne_none (hh : heap.Unfolds h) : heap.keyAt h ≠ none := by
  intro hnone
  obtain ⟨c, hreach, hcycle⟩ := (key?_circles.2 hnone).mono fun _ _ hk => hk.nests
  exact hh c hreach hcycle

theorem unfolds_of_not_tuple (hh : ∀ slots, heap.payload? h ≠ some (.tuple slots)) :
    heap.Unfolds h := by
  have hstop : ∀ k, ¬ heap.Nests h k := fun k ⟨slots, found, _⟩ => hh slots found
  intro k hk hcycle
  obtain rfl | ⟨j, hj, -⟩ := hk.cases_head
  · obtain ⟨j, hj, -⟩ := Relation.TransGen.head'_iff.1 hcycle
    exact hstop j hj
  · exact hstop j hj

theorem Hashable.exists_payload (hh : heap.Hashable h) : ∃ p, heap.payload? h = some p := by
  cases hh with
  | scalar found _ => exact ⟨_, found⟩
  | tuple found _ => exact ⟨_, found⟩

theorem Hashable.nested (hh : heap.Hashable h) (hk : heap.Nests h k) : heap.Hashable k := by
  obtain ⟨slots, found, hk⟩ := hk
  cases hh with
  | scalar found' key =>
    cases found.symm.trans found'
    cases key
  | tuple found' items =>
    cases found.symm.trans found'
    exact items k hk

theorem Hashable.not_cycle (hh : heap.Hashable h) : ¬ Relation.TransGen heap.Nests h h := by
  induction hh with
  | scalar found key =>
    intro hcycle
    obtain ⟨j, ⟨slots, found', -⟩, -⟩ := Relation.TransGen.head'_iff.1 hcycle
    cases found.symm.trans found'
    cases key
  | tuple found _ ih =>
    intro hcycle
    obtain ⟨j, hj, hback⟩ := Relation.TransGen.head'_iff.1 hcycle
    obtain ⟨slots, found', hmem⟩ := id hj
    cases found.symm.trans found'
    exact ih j hmem (Relation.TransGen.tail' hback hj)

theorem Hashable.unfolds (hh : heap.Hashable h) : heap.Unfolds h := by
  intro k hk
  suffices hk : heap.Hashable k from hk.not_cycle
  induction hk with
  | refl => exact hh
  | tail _ hstep ih => exact ih.nested hstep

theorem hashable_iff : heap.Hashable h ↔ ∃ key, heap.keyAt h = some (some key) := by
  constructor
  · intro hh
    cases hkey : heap.keyAt h with
    | none => exact absurd hkey hh.unfolds.keyAt_ne_none
    | some found =>
      cases found with
      | none => exact absurd hkey (hh.key?_ne _)
      | some key => exact ⟨key, rfl⟩
  · rintro ⟨key, hkey⟩
    exact hashable_of_key? hkey

theorem Unfolds.keyAt_of_not_hashable (hu : heap.Unfolds h) (hh : ¬ heap.Hashable h) :
    heap.keyAt h = some none := by
  cases hkey : heap.keyAt h with
  | none => exact absurd hkey hu.keyAt_ne_none
  | some found =>
    cases found with
    | none => rfl
    | some key => exact absurd (hashable_iff.2 ⟨key, hkey⟩) hh

theorem keysOf_extends {key key' : Handle → Option (Option Key)} {hs : List Handle} {ks : List Key}
    (hkeys : keysOf key hs = some (some ks))
    (hext : ∀ h ∈ hs, ∀ k, key h = some (some k) → key' h = some (some k) ∨ key' h = none) :
    keysOf key' hs = some (some ks) ∨ keysOf key' hs = none := by
  rw [keysOf_eq_some] at hkeys
  induction hkeys with
  | nil => exact .inl rfl
  | cons hk _ ih =>
    obtain hk | hk := hext _ List.mem_cons_self _ hk
    · obtain hrest | hrest := ih fun h hh => hext h (List.mem_cons_of_mem _ hh)
      · exact .inl (by simp [keysOf, hk, hrest])
      · exact .inr (by simp [keysOf, hk, hrest])
    · exact .inr (by simp [keysOf, hk])

/-- However deep it is looked for, on whatever heap its objects are still there, the key is the
same. -/
theorem key?_extends {n : Nat} {key : Key} (hkey : heap.key? n h = some (some key))
    (hext : ∀ j p, heap.payload? j = some p → next.payload? j = some p) (m : Nat) :
    next.key? m h = some (some key) ∨ next.key? m h = none := by
  induction n generalizing h key m with
  | zero => cases hkey
  | succ n ih =>
    cases m with
    | zero => exact .inr rfl
    | succ m =>
      cases hashable_of_key? hkey with
      | scalar found hscalar =>
        rw [key?_scalar n found hscalar] at hkey
        exact .inl ((key?_scalar m (hext _ _ found) hscalar).trans hkey)
      | tuple found _ =>
        rw [key?_tuple n found, Option.map_eq_some_iff] at hkey
        obtain ⟨_, hkeys, hkey⟩ := hkey
        obtain ⟨ks, rfl, rfl⟩ := Option.map_eq_some_iff.1 hkey
        rw [key?_tuple m (hext _ _ found)]
        obtain hkeys | hkeys := keysOf_extends hkeys fun k _ key hk => ih hk m
        · rw [hkeys]
          exact .inl rfl
        · rw [hkeys]
          exact .inr rfl

theorem Hashable.of_extends (hh : heap.Hashable h)
    (hext : ∀ j p, heap.payload? j = some p → next.payload? j = some p) : next.Hashable h := by
  induction hh with
  | scalar found key => exact .scalar (hext _ _ found) key
  | tuple found _ ih => exact .tuple (hext _ _ found) ih

theorem Hashable.keyAt_eq (hh : heap.Hashable h)
    (hext : ∀ j p, heap.payload? j = some p → next.payload? j = some p) :
    next.keyAt h = heap.keyAt h := by
  obtain ⟨key, hkey⟩ := hashable_iff.1 hh
  obtain ⟨key', hkey'⟩ := hashable_iff.1 (hh.of_extends hext)
  obtain hsame | hnone := key?_extends hkey hext (next.slots.size + 1)
  · exact hsame.trans hkey.symm
  · cases hkey'.symm.trans hnone

structure Shrinks (heap next : Heap) : Prop where
  slots : next.slots.size = heap.slots.size
  live : next.stats.live ≤ heap.stats.live
  payload : ∀ h p, next.payload? h = some p → heap.payload? h = some p

theorem Shrinks.refl (heap : Heap) : heap.Shrinks heap := ⟨rfl, le_rfl, fun _ _ found => found⟩

theorem Shrinks.trans {last : Heap} (hs : heap.Shrinks next) (hs' : next.Shrinks last) :
    heap.Shrinks last :=
  ⟨hs'.slots.trans hs.slots, hs'.live.trans hs.live,
    fun h p found => hs.payload h p (hs'.payload h p found)⟩

theorem exists_payload_of_isAlive (alive : heap.isAlive h = true) :
    ∃ p, heap.payload? h = some p := by
  obtain ⟨e, he⟩ := (isAlive_iff heap h).1 alive
  exact ⟨e.payload, (payload?_eq_some_iff heap h _).2 ⟨e, he, rfl⟩⟩

variable {U : Type} {O : Ownership U} {H : Multiset Handle} {w : World U}

theorem Exact.nested_isAlive (hx : Exact O H w) (hk : w.heap.Nests h k) :
    w.heap.isAlive k = true := by
  obtain ⟨slots, found, hk⟩ := hk
  exact hx.isAlive (Multiset.mem_add.2 (.inr (mem_units found hk)))

/-- What stays keeps its key, since what it holds stays with it. -/
theorem Shrinks.key?_eq (hs : heap.Shrinks w.heap) (hx : Exact O H w)
    (alive : w.heap.isAlive h = true) (n : Nat) : w.heap.key? n h = heap.key? n h := by
  induction n generalizing h with
  | zero => rfl
  | succ n ih =>
    obtain ⟨p, found⟩ := exists_payload_of_isAlive alive
    have found' := hs.payload h p found
    by_cases htuple : ∃ slots, p = .tuple slots
    · obtain ⟨slots, rfl⟩ := htuple
      rw [key?_tuple n found, key?_tuple n found', keysOf_congr fun k hk =>
        ih (Exact.nested_isAlive hx ⟨slots, found, hk⟩)]
    · cases p with
      | tuple slots => exact absurd ⟨slots, rfl⟩ htuple
      | _ => simp only [key?, found, found']

theorem Shrinks.keyAt_eq (hs : heap.Shrinks w.heap) (hx : Exact O H w)
    (alive : w.heap.isAlive h = true) : w.heap.keyAt h = heap.keyAt h := by
  unfold keyAt
  rw [hs.slots]
  exact hs.key?_eq hx alive _

theorem Hashable.of_shrinks (hh : heap.Hashable h) (hs : heap.Shrinks w.heap) (hx : Exact O H w)
    (alive : w.heap.isAlive h = true) : w.heap.Hashable h := by
  obtain ⟨key, hkey⟩ := hashable_iff.1 hh
  exact hashable_iff.2 ⟨key, (hs.keyAt_eq hx alive).trans hkey⟩

end Heap

end Causeway
