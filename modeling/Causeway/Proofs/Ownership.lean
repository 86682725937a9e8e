import Causeway.Proofs.HeapOrder
import Causeway.Action
import Mathlib.Logic.Relation
/-!
# Ownership

Who owns the count units. A move changes the heap by one operation, together with the units that
whoever makes it has in hand; a path is a run of moves. Under the strict discipline a unit is given
back only by who has it, and passes to the client or into a payload only out of a hand. Under the
lax one anything may happen to the units in hand, and only the heap operations themselves are left.

The strict discipline keeps the counts exact. Nothing is said here about the code that moves.
-/
set_option autoImplicit false

namespace Causeway

variable {U : Type}

structure Ownership (U : Type) where
  /-- The units the client owns. -/
  units : U → Multiset Handle
  /-- What the client keeps to all the time. -/
  sound : U → Prop
  /-- What a complete action leaves as it found it. -/
  scope : U → List Nat

def Ownership.blank : Ownership U where
  units := fun _ => 0
  sound := fun _ => True
  scope := fun _ => []

inductive Discipline where
  | strict
  | lax

/-- What may become of the payload of a live object. -/
inductive Payload.Change : Payload → Payload → Prop where
  | append (items : List Handle) (item : Handle) : Change (.list items) (.list (items ++ [item]))
  | fill (slots : List (Option Handle)) (i : Nat) (h : Handle) :
      Change (.tuple slots) (.tuple (slots.set i (some h)))
  | move (seq : Handle) (n m : Nat) : Change (.iterator seq n) (.iterator seq m)
  | state (d : Descriptor) (s s' : Option NativeState) : Change (.native d s) (.native d s')

/-- One move, from the units in hand and the world before to those after. -/
inductive Move (O : Ownership U) (d : Discipline) :
    Multiset Handle × World U → Multiset Handle × World U → Prop where
  | insert (H : Multiset Handle) (w : World U) (p : Payload) :
      Move O d (↑p.units + H, w)
        ({(w.heap.insert p).1} + H, { w with heap := (w.heap.insert p).2 })
  | increment {H : Multiset Handle} {w : World U} {h : Handle} {n : Nat} {heap : Heap}
      (done : w.heap.increment? h = some (n, heap)) :
      Move O d (H, w) ({h} + H, { w with heap })
  | decrement {H : Multiset Handle} {w : World U} {h : Handle} {r : Released} {heap : Heap}
      (done : w.heap.decrement? h = some (r, heap)) :
      Move O d ({h} + H, w) (r.units + H, { w with heap })
  | change {H H' : Multiset Handle} {w : World U} {h : Handle} {p p' : Payload}
      (found : w.heap.payload? h = some p) (legal : p.Change p')
      (units : H + ↑p.units = H' + ↑p'.units) :
      Move O d (H, w) (H', { w with heap := w.heap.setPayload h p' })
  | outside {H H' : Multiset Handle} {w w' : World U} (heap : w'.heap = w.heap)
      (units : d = .strict → H + O.units w.client = H' + O.units w'.client)
      (sound : d = .strict → O.sound w.client → O.sound w'.client) :
      Move O d (H, w) (H', w')

def Path (O : Ownership U) (d : Discipline) :
    Multiset Handle × World U → Multiset Handle × World U → Prop :=
  Relation.ReflTransGen (Move O d)

variable {O : Ownership U} {d : Discipline} {H H' E : Multiset Handle} {w w' : World U}

theorem Move.frame (m : Move O d (H, w) (H', w')) (E : Multiset Handle) :
    Move O d (H + E, w) (H' + E, w') := by
  cases m with
  | insert H w p =>
    rw [add_assoc, add_assoc]
    exact .insert (H + E) w p
  | increment done =>
    rw [add_assoc]
    exact .increment done
  | decrement done =>
    rw [add_assoc, add_assoc]
    exact .decrement done
  | @change _ _ _ _ p p' found legal units =>
    refine .change found legal ?_
    calc H + E + ↑p.units = H + ↑p.units + E := by abel
      _ = H' + ↑p'.units + E := by rw [units]
      _ = H' + E + ↑p'.units := by abel
  | outside heap units sound =>
    refine .outside heap (fun hd => ?_) sound
    calc H + E + O.units w.client = H + O.units w.client + E := by abel
      _ = H' + O.units w'.client + E := by rw [units hd]
      _ = H' + E + O.units w'.client := by abel

theorem Move.lax (m : Move O d (H, w) (H', w')) : Move O .lax (H, w) (H', w') := by
  cases m with
  | insert H w p => exact .insert H w p
  | increment done => exact .increment done
  | decrement done => exact .decrement done
  | change found legal units => exact .change found legal units
  | outside heap units sound => exact .outside heap (by simp) (by simp)

theorem Path.frame {x y : Multiset Handle × World U} (m : Path O d x y) (E : Multiset Handle) :
    Path O d (x.1 + E, x.2) (y.1 + E, y.2) := by
  induction m with
  | refl => exact .refl
  | tail _ last ih => exact ih.tail (last.frame E)

theorem Path.lax {x y : Multiset Handle × World U} (m : Path O d x y) : Path O .lax x y := by
  induction m with
  | refl => exact .refl
  | tail _ last ih => exact ih.tail last.lax

/-- Under the lax discipline the units in hand are anything. -/
theorem Path.adjust (H H' : Multiset Handle) (w : World U) : Path O .lax (H, w) (H', w) :=
  .single (.outside rfl (by simp) (by simp))

theorem Path.anyUnits (m : Path O .lax (H, w) (H', w')) (K K' : Multiset Handle) :
    Path O .lax (K, w) (K', w') :=
  ((Path.adjust K H w).trans m).trans (Path.adjust H' K' w')

theorem Move.heapSteps {x y : Multiset Handle × World U} (m : Move O d x y) :
    Relation.ReflTransGen Heap.Step x.2.heap y.2.heap := by
  cases m with
  | insert H w p => exact .single (.insert w.heap p)
  | increment done => exact .single (.increment done)
  | decrement done => exact .single (.decrement done)
  | change _ _ _ => exact .single (.setPayload _ _ _)
  | outside heap _ _ =>
    rw [heap]

theorem Path.heapSteps {x y : Multiset Handle × World U} (m : Path O d x y) :
    Relation.ReflTransGen Heap.Step x.2.heap y.2.heap := by
  induction m with
  | refl => exact .refl
  | tail _ last ih => exact ih.trans last.heapSteps

theorem Move.sound {x y : Multiset Handle × World U} (m : Move O .strict x y)
    (hs : O.sound x.2.client) : O.sound y.2.client := by
  cases m with
  | outside _ _ sound => exact sound rfl hs
  | _ => exact hs

/-- Every count is the number of the units in hand, of the client's, and of those that live objects
own. -/
structure Exact (O : Ownership U) (H : Multiset Handle) (w : World U) : Prop where
  inOrder : w.heap.InOrder
  counted : ∀ h, w.heap.refcount h = (H + O.units w.client + w.heap.units).count h
  sound : O.sound w.client

theorem Move.exact (m : Move O .strict (H, w) (H', w')) (hx : Exact O H w) : Exact O H' w' := by
  have hsound := m.sound hx.sound
  have horder := Heap.inOrder_of_steps m.heapSteps hx.inOrder
  refine ⟨horder, fun k => ?_, hsound⟩
  have hk := hx.counted k
  cases m with
  | insert H w p =>
    have hunits := Heap.insert_units hx.inOrder p
    have hcount := Heap.insert_refcount hx.inOrder p k
    simp only [Multiset.count_add] at hk ⊢
    rw [hcount, hunits, Multiset.count_add]
    omega
  | increment done =>
    have hunits := Heap.increment?_units done
    have hcount := Heap.increment?_refcount done k
    simp only [Multiset.count_add] at hk ⊢
    rw [hcount, hunits]
    omega
  | decrement done =>
    have hunits := congrArg (Multiset.count k) (Heap.decrement?_units done)
    have hcount := Heap.decrement?_refcount hx.inOrder done k
    simp only [Multiset.count_add] at hk hunits ⊢
    omega
  | @change H H' w h p p' found legal units =>
    obtain ⟨e, he, rfl⟩ := (Heap.payload?_eq_some_iff _ _ _).1 found
    have hheap := congrArg (Multiset.count k) (Heap.setPayload_units he p')
    have hcount := Heap.setPayload_refcount w.heap h p' k
    have hhand := congrArg (Multiset.count k) units
    simp only [Multiset.count_add] at hk hheap hhand ⊢
    omega
  | outside heap units sound =>
    have hhand := congrArg (Multiset.count k) (units rfl)
    simp only [Multiset.count_add] at hk hhand ⊢
    rw [heap]
    omega

/-- A new object without components brings one unit into hand. -/
theorem Exact.insert_leaf (hx : Exact O H w) (p : Payload) (hp : p.units = []) :
    Exact O ({(w.heap.insert p).1} + H) { w with heap := (w.heap.insert p).2 } := by
  have m : Move O .strict (↑p.units + H, w) _ := .insert H w p
  exact m.exact (by rwa [hp, Multiset.coe_nil, zero_add])

theorem Path.exact {x y : Multiset Handle × World U} (m : Path O .strict x y)
    (hx : Exact O x.1 x.2) : Exact O y.1 y.2 := by
  induction m with
  | refl => exact hx
  | tail _ last ih => exact last.exact ih

theorem Path.exact_frame (m : Path O .strict (H, w) (H', w')) (hx : Exact O (H + E) w) :
    Exact O (H' + E) w' :=
  (m.frame E).exact hx

theorem Path.exact_join (m : Path O .strict (0, w) (H, w')) (hx : Exact O E w) :
    Exact O (H + E) w' :=
  m.exact_frame (by rwa [zero_add])

theorem Path.exact_aside (m : Path O .strict (0, w) (0, w')) (hx : Exact O E w) : Exact O E w' := by
  rw [← zero_add E]
  exact m.exact_join hx

theorem Path.exact_spend (m : Path O .strict (H, w) (0, w')) (hx : Exact O (H + E) w) :
    Exact O E w' := by
  rw [← zero_add E]
  exact m.exact_frame hx

theorem Exact.isAlive (hx : Exact O H w) {h : Handle}
    (hh : h ∈ H + O.units w.client + w.heap.units) : w.heap.isAlive h = true := by
  rw [Heap.isAlive_iff_refcount_pos hx.inOrder, hx.counted]
  exact Multiset.count_pos.2 hh

variable {h : Handle} {p : Payload}

theorem Payload.Change.of_tuple {slots : List (Option Handle)} {p' : Payload}
    (c : (Payload.tuple slots).Change p') : ∃ i k, p' = .tuple (slots.set i (some k)) := by
  cases c with
  | fill _ i k => exact ⟨i, k, rfl⟩

/-- An object that someone keeps a unit on is there after every move, its payload the same or
changed legally. -/
theorem Move.payload_kept (m : Move O .strict (H, w) (H', w')) (hx : Exact O (H + E) w)
    (hkept : h ∈ E) (hp : w.heap.payload? h = some p) :
    ∃ p', w'.heap.payload? h = some p' ∧ (p' = p ∨ p.Change p') := by
  obtain ⟨e, he, rfl⟩ := (Heap.payload?_eq_some_iff _ _ _).1 hp
  suffices hentry : ∃ e', w'.heap.entryAt? h = some e' ∧
      (e'.payload = e.payload ∨ e.payload.Change e'.payload) by
    obtain ⟨e', he', hchange⟩ := hentry
    exact ⟨e'.payload, (Heap.payload?_eq_some_iff _ _ _).2 ⟨e', he', rfl⟩, hchange⟩
  cases m with
  | insert H w q =>
    have hne : h ≠ (w.heap.insert q).1 := by
      rintro rfl
      rw [Heap.insert_fresh hx.inOrder] at he
      cases he
    refine ⟨e, ?_, .inl rfl⟩
    rw [Heap.insert_entryAt? hx.inOrder, if_neg hne, he]
  | @increment _ _ k n heap done =>
    obtain ⟨e', he', hnext⟩ := Heap.increment?_entryAt? done
    by_cases hk : h = k
    · subst hk
      rw [he] at he'
      cases he'
      exact ⟨⟨e.refcount + 1, e.payload⟩, by rw [hnext, if_pos rfl], .inl rfl⟩
    · exact ⟨e, by rw [hnext, if_neg hk, he], .inl rfl⟩
  | @decrement H _ k r heap done =>
    obtain ⟨e', he', hpos, hnext⟩ := Heap.decrement?_entryAt? hx.inOrder done
    by_cases hk : h = k
    · subst hk
      rw [he] at he'
      cases he'
      have hcount := hx.counted h
      have hmem := Multiset.one_le_count_iff_mem.2 hkept
      rw [Heap.refcount_eq, he, Option.elim_some] at hcount
      simp only [Multiset.count_add, Multiset.count_singleton_self] at hcount
      -- one unit is in hand and another one is kept, so this is not the last
      have hne : e.refcount ≠ 1 := by omega
      exact ⟨⟨e.refcount - 1, e.payload⟩, by rw [hnext, if_pos rfl, if_neg hne], .inl rfl⟩
    · exact ⟨e, by rw [hnext, if_neg hk, he], .inl rfl⟩
  | @change _ _ _ k q q' found legal units =>
    obtain ⟨e', he', rfl⟩ := (Heap.payload?_eq_some_iff _ _ _).1 found
    by_cases hk : h = k
    · subst hk
      rw [he] at he'
      cases he'
      exact ⟨_, by rw [Heap.setPayload_entryAt? he, if_pos rfl], .inr legal⟩
    · exact ⟨e, by rw [Heap.setPayload_entryAt? he', if_neg hk, he], .inl rfl⟩
  | outside heap units sound => exact ⟨e, by rw [heap, he], .inl rfl⟩

theorem Path.payload_kept {x y : Multiset Handle × World U} (m : Path O .strict x y)
    (hx : Exact O (x.1 + E) x.2) (hkept : h ∈ E) (hp : x.2.heap.payload? h = some p) :
    ∃ p', y.2.heap.payload? h = some p' ∧ Relation.ReflTransGen Payload.Change p p' := by
  induction m with
  | refl => exact ⟨p, hp, .refl⟩
  | tail m last ih =>
    obtain ⟨q, hq, hpath⟩ := ih
    obtain ⟨q', hq', hchange⟩ := last.payload_kept (Path.exact_frame m hx) hkept hq
    refine ⟨q', hq', ?_⟩
    obtain rfl | hchange := hchange
    · exact hpath
    · exact hpath.tail hchange

theorem Payload.function_kept {name : String} {code : CodeId}
    (c : Relation.ReflTransGen Payload.Change (.function name code) p) :
    p = .function name code := by
  induction c with
  | refl => rfl
  | tail _ last ih =>
    subst ih
    cases last

/-- A tuple keeps its length, and a slot that is filled stays so. -/
theorem Payload.tuple_kept {slots : List (Option Handle)}
    (c : Relation.ReflTransGen Payload.Change (.tuple slots) p) :
    ∃ slots' : List (Option Handle), p = .tuple slots' ∧ slots'.length = slots.length ∧
      ∀ (i : Nat) (k : Handle), slots[i]? = some (some k) →
        ∃ k' : Handle, slots'[i]? = some (some k') := by
  induction c with
  | refl => exact ⟨slots, rfl, rfl, fun i k hk => ⟨k, hk⟩⟩
  | tail _ last ih =>
    obtain ⟨slots', rfl, hlength, hfilled⟩ := ih
    obtain ⟨j, v, rfl⟩ := last.of_tuple
    refine ⟨_, rfl, by simpa using hlength, fun i k hk => ?_⟩
    obtain ⟨k', hk'⟩ := hfilled i k hk
    have hlt := (List.getElem?_eq_some_iff.1 hk').1
    by_cases hij : j = i
    · subst hij
      exact ⟨v, by rw [List.getElem?_set_self hlt]⟩
    · exact ⟨k', by rw [List.getElem?_set_ne hij, hk']⟩

end Causeway
