import Causeway.Proofs.HeapEntries
/-!
# A heap in order

The accounts of a heap agree with its slots, and its free list names the vacant slots. Each heap
operation keeps a heap in order, whatever it is asked to do: none looks at who owns a unit.
-/
set_option autoImplicit false

namespace Causeway.Heap

structure InOrder (heap : Heap) : Prop where
  live : heap.stats.live = heap.occupied
  allocations : heap.stats.allocations = heap.stats.deallocations + heap.stats.live
  acquires : heap.stats.acquires = heap.stats.releases + heap.refcounts
  positive : ∀ h e, heap.entryAt? h = some e → 1 ≤ e.refcount
  free_nodup : heap.free.Nodup
  free_iff : ∀ i, i ∈ heap.free ↔ ∃ g, heap.slots[i]? = some ⟨g, none⟩

/-- One heap operation. An operation on a handle whose object is gone changes nothing and is no
step. -/
inductive Step : Heap → Heap → Prop where
  | insert (heap : Heap) (p : Payload) : Step heap (heap.insert p).2
  | increment {heap next : Heap} {h : Handle} {n : Nat}
      (done : heap.increment? h = some (n, next)) : Step heap next
  | decrement {heap next : Heap} {h : Handle} {r : Released}
      (done : heap.decrement? h = some (r, next)) : Step heap next
  | setPayload (heap : Heap) (h : Handle) (p : Payload) : Step heap (heap.setPayload h p)

def Reached (heap : Heap) : Prop := Relation.ReflTransGen Step empty heap

variable {heap next : Heap} {h k : Handle} {p : Payload} {e : HeapEntry}

theorem empty_inOrder : empty.InOrder where
  live := rfl
  allocations := rfl
  acquires := rfl
  positive := by intro h e he; simp [empty, entryAt?] at he
  free_nodup := List.nodup_nil
  free_iff := by intro i; simp [empty]

theorem insert_cases (ho : heap.InOrder) (p : Payload) :
    heap.insert p = heap.push p ∨
    ∃ i g rest, heap.free = i :: rest ∧ heap.slots[i]? = some ⟨g, none⟩ ∧
      heap.insert p = (⟨i, g⟩,
        ⟨heap.slots.setIfInBounds i ⟨g, some ⟨1, p⟩⟩, rest, heap.stats.allocate⟩) := by
  unfold insert
  cases hf : heap.free with
  | nil => exact .inl rfl
  | cons i rest =>
    obtain ⟨g, hg⟩ := (ho.free_iff i).1 (by simp [hf])
    exact .inr ⟨i, g, rest, rfl, hg, by simp [hg]⟩

theorem insert_fresh (ho : heap.InOrder) (p : Payload) :
    heap.entryAt? (heap.insert p).1 = none := by
  obtain hp | ⟨i, g, rest, _, hs, hp⟩ := insert_cases ho p
  · simp [hp, push, entryAt?]
  · simp [hp, entryAt?, hs]

/-- A new object has one unit, and no other object is written over. -/
theorem insert_entryAt? (ho : heap.InOrder) (p : Payload) (k : Handle) :
    (heap.insert p).2.entryAt? k =
      if k = (heap.insert p).1 then some ⟨1, p⟩ else heap.entryAt? k := by
  obtain hp | ⟨i, g, rest, _, hs, hp⟩ := insert_cases ho p
  · obtain ⟨j, g⟩ := k
    simp only [hp, push, entryAt?, Handle.mk.injEq]
    by_cases hj : j = heap.slots.size
    · subst hj
      simp [eq_comm]
    · rw [Array.getElem?_push]
      simp [hj]
  · obtain ⟨j, g'⟩ := k
    simp only [hp, Handle.mk.injEq]
    by_cases hj : j = i
    · subst hj
      rw [entryAt?_set_self heap _ _ _ _ _ _ hs]
      simp [entryAt?, hs, eq_comm]
    · rw [entryAt?_set_of_ne heap _ _ _ _ _ hj]
      simp [hj]

theorem insert_payload? (ho : heap.InOrder) (p : Payload) (k : Handle) :
    (heap.insert p).2.payload? k = if k = (heap.insert p).1 then some p else heap.payload? k := by
  unfold payload?
  rw [insert_entryAt? ho]
  split <;> rfl

theorem insert_fresh_payload? (ho : heap.InOrder) (p : Payload) :
    heap.payload? (heap.insert p).1 = none := by
  rw [payload?, insert_fresh ho]
  rfl

theorem insert_kept (ho : heap.InOrder) (p : Payload) {k : Handle} {q : Payload}
    (hk : heap.payload? k = some q) : (heap.insert p).2.payload? k = some q := by
  rw [insert_payload? ho, if_neg, hk]
  rintro rfl
  rw [insert_fresh_payload? ho] at hk
  cases hk

theorem insert_tally {M : Type} [AddCommMonoid M] (f : HeapSlot → M) (hf : ∀ g, f ⟨g, none⟩ = 0)
    (ho : heap.InOrder) (p : Payload) :
    tally f (heap.insert p).2 = tally f heap + f ⟨(heap.insert p).1.generation, some ⟨1, p⟩⟩ := by
  obtain hp | ⟨i, g, rest, _, hs, hp⟩ := insert_cases ho p
  · rw [hp]
    exact tally_push f heap _ _ _
  · rw [hp]
    have hsum := tally_set f heap rest heap.stats.allocate i _ ⟨g, some ⟨1, p⟩⟩ hs
    rwa [hf, add_zero] at hsum

theorem insert_units (ho : heap.InOrder) (p : Payload) :
    (heap.insert p).2.units = heap.units + ↑p.units :=
  insert_tally HeapSlot.units (fun _ => rfl) ho p

theorem insert_inOrder (ho : heap.InOrder) (p : Payload) : (heap.insert p).2.InOrder := by
  have hocc : (heap.insert p).2.occupied = heap.occupied + 1 :=
    insert_tally HeapSlot.occupancy (fun _ => rfl) ho p
  have hcount : (heap.insert p).2.refcounts = heap.refcounts + 1 :=
    insert_tally HeapSlot.refcount (fun _ => rfl) ho p
  have hstats : (heap.insert p).2.stats = heap.stats.allocate := by
    obtain hp | ⟨i, g, rest, _, _, hp⟩ := insert_cases ho p
    · rw [hp]
      rfl
    · rw [hp]
  have hlive := ho.live
  have halloc := ho.allocations
  have hacq := ho.acquires
  refine ⟨?_, ?_, ?_, ?_, ?_, ?_⟩
  · simp only [hstats, hocc, Stats.allocate, hlive]
  · simp only [hstats, Stats.allocate]
    omega
  · simp only [hstats, hcount, Stats.allocate]
    omega
  · intro k e hk
    rw [insert_entryAt? ho] at hk
    split at hk
    · simp only [Option.some.injEq] at hk
      simp [← hk]
    · exact ho.positive k e hk
  · obtain hp | ⟨i, g, rest, hfree, _, hp⟩ := insert_cases ho p
    · rw [hp]
      exact ho.free_nodup
    · rw [hp]
      have hnd := ho.free_nodup
      rw [hfree] at hnd
      exact (List.nodup_cons.1 hnd).2
  · intro j
    obtain hp | ⟨i, g, rest, hfree, hs, hp⟩ := insert_cases ho p
    · rw [hp]
      change j ∈ heap.free ↔ ∃ g, (heap.slots.push _)[j]? = some ⟨g, none⟩
      rw [ho.free_iff, Array.getElem?_push]
      by_cases hj : j = heap.slots.size
      · subst hj
        simp
      · simp [hj]
    · rw [hp]
      change j ∈ rest ↔ ∃ g', (heap.slots.setIfInBounds i _)[j]? = some ⟨g', none⟩
      have hnd := ho.free_nodup
      rw [hfree] at hnd
      have hlt : i < heap.slots.size := (Array.getElem?_eq_some_iff.1 hs).1
      by_cases hj : j = i
      · subst hj
        rw [Array.getElem?_setIfInBounds_self_of_lt hlt]
        simp [(List.nodup_cons.1 hnd).1]
      · rw [Array.getElem?_setIfInBounds_ne (Ne.symm hj), ← ho.free_iff, hfree]
        simp [hj]

theorem setEntry_entryAt? (he : heap.entryAt? h = some e) (e' : HeapEntry) (k : Handle) :
    (heap.setEntry h e').entryAt? k = if k = h then some e' else heap.entryAt? k := by
  have hs := (entryAt?_eq_some_iff heap h e).1 he
  obtain ⟨j, g⟩ := k
  by_cases hj : j = h.index
  · subst hj
    unfold setEntry
    rw [entryAt?_set_self heap heap.free heap.stats _ _ _ g hs]
    by_cases hg : h.generation = g
    · simp [← hg]
    · have hne : (⟨h.index, g⟩ : Handle) ≠ h := fun hk => hg (congrArg Handle.generation hk).symm
      rw [if_neg hne, entryAt?_none_of_generation heap ⟨h.index, g⟩ _ hs hg]
      simp [hg]
  · have hne : (⟨j, g⟩ : Handle) ≠ h := fun hk => hj (congrArg Handle.index hk)
    rw [if_neg hne]
    exact entryAt?_set_of_ne heap heap.free heap.stats _ _ _ hj

theorem setEntry_tally {M : Type} [AddCommMonoid M] (f : HeapSlot → M)
    (he : heap.entryAt? h = some e) (e' : HeapEntry) :
    tally f (heap.setEntry h e') + f ⟨h.generation, some e⟩ =
      tally f heap + f ⟨h.generation, some e'⟩ :=
  tally_set f heap heap.free heap.stats _ _ _ ((entryAt?_eq_some_iff heap h e).1 he)

theorem setEntry_free (he : heap.entryAt? h = some e) (e' : HeapEntry) (ho : heap.InOrder)
    (i : Nat) : i ∈ heap.free ↔ ∃ g, (heap.setEntry h e').slots[i]? = some ⟨g, none⟩ := by
  have hs := (entryAt?_eq_some_iff heap h e).1 he
  have hlt : h.index < heap.slots.size := (Array.getElem?_eq_some_iff.1 hs).1
  rw [ho.free_iff]
  change _ ↔ ∃ g, (heap.slots.setIfInBounds _ _)[i]? = some ⟨g, none⟩
  by_cases hi : i = h.index
  · subst hi
    rw [Array.getElem?_setIfInBounds_self_of_lt hlt, hs]
    simp
  · rw [Array.getElem?_setIfInBounds_ne (Ne.symm hi)]

theorem increment?_eq_some {n : Nat} (hi : heap.increment? h = some (n, next)) :
    ∃ e, heap.entryAt? h = some e ∧ n = e.refcount + 1 ∧
      next = { heap.setEntry h { e with refcount := e.refcount + 1 } with
        stats := { heap.stats with acquires := heap.stats.acquires + 1 } } := by
  unfold increment? at hi
  obtain ⟨e, he, hn⟩ := Option.map_eq_some_iff.1 hi
  simp only [Prod.mk.injEq] at hn
  exact ⟨e, he, hn.1.symm, hn.2.symm⟩

theorem increment?_entryAt? {n : Nat} (hi : heap.increment? h = some (n, next)) :
    ∃ e, heap.entryAt? h = some e ∧
      ∀ k, next.entryAt? k =
        if k = h then some ⟨e.refcount + 1, e.payload⟩ else heap.entryAt? k := by
  obtain ⟨e, he, _, rfl⟩ := increment?_eq_some hi
  exact ⟨e, he, setEntry_entryAt? he _⟩

theorem increment?_payload? {n : Nat} (hi : heap.increment? h = some (n, next)) (k : Handle) :
    next.payload? k = heap.payload? k := by
  obtain ⟨e, he, hnext⟩ := increment?_entryAt? hi
  unfold payload?
  rw [hnext]
  split
  · rename_i hk
    rw [hk, he]
    rfl
  · rfl

theorem increment?_units {n : Nat} (hi : heap.increment? h = some (n, next)) :
    next.units = heap.units := by
  obtain ⟨e, he, _, rfl⟩ := increment?_eq_some hi
  exact add_right_cancel (setEntry_tally HeapSlot.units he { e with refcount := e.refcount + 1 })

theorem increment?_inOrder {n : Nat} (hi : heap.increment? h = some (n, next)) (ho : heap.InOrder) :
    next.InOrder := by
  obtain ⟨e, he, _, rfl⟩ := increment?_eq_some hi
  have hocc := setEntry_tally HeapSlot.occupancy he { e with refcount := e.refcount + 1 }
  have hcount := setEntry_tally HeapSlot.refcount he { e with refcount := e.refcount + 1 }
  have hlive := ho.live
  have hacq := ho.acquires
  refine ⟨?_, ho.allocations, ?_, ?_, ho.free_nodup, setEntry_free he _ ho⟩
  · exact hlive.trans (add_right_cancel hocc).symm
  · change heap.stats.acquires + 1 = heap.stats.releases + tally _ (heap.setEntry h _)
    simp only [HeapSlot.refcount] at hcount
    simp only [refcounts] at hacq
    omega
  · intro k e' hk
    have hk' : (heap.setEntry h { e with refcount := e.refcount + 1 }).entryAt? k = some e' := hk
    rw [setEntry_entryAt? he] at hk'
    split at hk'
    · simp only [Option.some.injEq] at hk'
      simp [← hk']
    · exact ho.positive k e' hk'

theorem setPayload_of_entryAt? (he : heap.entryAt? h = some e) (p : Payload) :
    heap.setPayload h p = heap.setEntry h { e with payload := p } := by
  simp [setPayload, he]

theorem setPayload_units (he : heap.entryAt? h = some e) (p : Payload) :
    (heap.setPayload h p).units + ↑e.payload.units = heap.units + ↑p.units := by
  rw [setPayload_of_entryAt? he]
  exact setEntry_tally HeapSlot.units he _

theorem units_le {p : Payload} (hp : heap.payload? h = some p) : ↑p.units ≤ heap.units := by
  obtain ⟨e, he, rfl⟩ := (payload?_eq_some_iff heap h p).1 hp
  have hunits : _ + (0 : Multiset Handle) = _ := (setPayload_units he .none).symm
  rw [add_zero] at hunits
  rw [hunits]
  exact Multiset.le_add_left _ _

theorem mem_units {p : Payload} {k : Handle} (hp : heap.payload? h = some p) (hk : k ∈ p.units) :
    k ∈ heap.units :=
  Multiset.mem_of_le (units_le hp) (Multiset.mem_coe.2 hk)

theorem setPayload_entryAt? (he : heap.entryAt? h = some e) (p : Payload) (k : Handle) :
    (heap.setPayload h p).entryAt? k =
      if k = h then some { e with payload := p } else heap.entryAt? k := by
  rw [setPayload_of_entryAt? he]
  exact setEntry_entryAt? he _ k

theorem setPayload_payload? {q : Payload} (hq : heap.payload? h = some q) (p : Payload)
    (k : Handle) : (heap.setPayload h p).payload? k = if k = h then some p else heap.payload? k := by
  obtain ⟨e, he, _⟩ := (payload?_eq_some_iff heap h q).1 hq
  unfold payload?
  rw [setPayload_entryAt? he]
  split <;> rfl

theorem setPayload_inOrder (ho : heap.InOrder) (h : Handle) (p : Payload) :
    (heap.setPayload h p).InOrder := by
  cases he : heap.entryAt? h with
  | none =>
    have hp : heap.setPayload h p = heap := by simp [setPayload, he]
    rwa [hp]
  | some e =>
    rw [setPayload_of_entryAt? he]
    have hocc := setEntry_tally HeapSlot.occupancy he { e with payload := p }
    have hcount := setEntry_tally HeapSlot.refcount he { e with payload := p }
    refine ⟨?_, ho.allocations, ?_, ?_, ho.free_nodup, setEntry_free he _ ho⟩
    · exact ho.live.trans (add_right_cancel hocc).symm
    · change heap.stats.acquires = heap.stats.releases + tally _ (heap.setEntry h _)
      rw [add_right_cancel hcount]
      exact ho.acquires
    · intro k e' hk
      rw [setEntry_entryAt? he] at hk
      split at hk
      · simp only [Option.some.injEq] at hk
        rw [← hk]
        exact ho.positive h e he
      · exact ho.positive k e' hk

theorem decrement?_eq_some {r : Released} (hd : heap.decrement? h = some (r, next)) :
    ∃ e, heap.entryAt? h = some e ∧
      ((0 < e.refcount - 1 ∧ r = .alive (e.refcount - 1) ∧
        next = { heap.setEntry h { e with refcount := e.refcount - 1 } with
          stats := { heap.stats with releases := heap.stats.releases + 1 } }) ∨
      (e.refcount ≤ 1 ∧ r = .dead e.payload ∧
        next = ⟨heap.slots.setIfInBounds h.index ⟨h.generation + 1, none⟩, h.index :: heap.free,
          { heap.stats with
            releases := heap.stats.releases + 1
            deallocations := heap.stats.deallocations + 1
            live := heap.stats.live - 1 }⟩)) := by
  unfold decrement? at hd
  obtain ⟨e, he, hr⟩ := Option.map_eq_some_iff.1 hd
  refine ⟨e, he, ?_⟩
  by_cases hpos : e.refcount - 1 > 0
  · simp only [hpos, ↓reduceIte, Prod.mk.injEq] at hr
    exact .inl ⟨hpos, hr.1.symm, hr.2.symm⟩
  · simp only [hpos, ↓reduceIte, Prod.mk.injEq] at hr
    exact .inr ⟨by omega, hr.1.symm, hr.2.symm⟩

theorem vacate_entryAt? (he : heap.entryAt? h = some e) (free : List Nat) (stats : Stats)
    (k : Handle) :
    entryAt? ⟨heap.slots.setIfInBounds h.index ⟨h.generation + 1, none⟩, free, stats⟩ k =
      if k = h then none else heap.entryAt? k := by
  have hs := (entryAt?_eq_some_iff heap h e).1 he
  obtain ⟨j, g⟩ := k
  by_cases hj : j = h.index
  · subst hj
    rw [entryAt?_set_self heap free stats _ _ _ g hs]
    by_cases hg : h.generation = g
    · simp [← hg]
    · have hne : (⟨h.index, g⟩ : Handle) ≠ h := fun hk => hg (congrArg Handle.generation hk).symm
      rw [if_neg hne, entryAt?_none_of_generation heap ⟨h.index, g⟩ _ hs hg]
      simp
  · have hne : (⟨j, g⟩ : Handle) ≠ h := fun hk => hj (congrArg Handle.index hk)
    rw [if_neg hne]
    exact entryAt?_set_of_ne heap free stats _ _ _ hj

/-- The last unit takes the object with it, and its units come free; any other unit takes nothing
else. -/
theorem decrement?_entryAt? {r : Released} (ho : heap.InOrder)
    (hd : heap.decrement? h = some (r, next)) :
    ∃ e, heap.entryAt? h = some e ∧ 1 ≤ e.refcount ∧
      ∀ k, next.entryAt? k =
        if k = h then (if e.refcount = 1 then none else some ⟨e.refcount - 1, e.payload⟩)
        else heap.entryAt? k := by
  obtain ⟨e, he, ⟨hpos, _, rfl⟩ | ⟨hle, _, rfl⟩⟩ := decrement?_eq_some hd
  · refine ⟨e, he, by omega, fun k => ?_⟩
    rw [if_neg (show ¬ e.refcount = 1 by omega)]
    exact setEntry_entryAt? he _ k
  · have hone : e.refcount = 1 := le_antisymm hle (ho.positive h e he)
    refine ⟨e, he, by omega, fun k => ?_⟩
    rw [if_pos hone]
    exact vacate_entryAt? he _ _ k

theorem decrement?_alive_payload? {n : Nat} (hd : heap.decrement? h = some (.alive n, next))
    (k : Handle) : next.payload? k = heap.payload? k := by
  obtain ⟨e, he, ⟨_, _, rfl⟩ | ⟨_, ⟨⟩, _⟩⟩ := decrement?_eq_some hd
  change ((heap.setEntry h _).entryAt? k).map _ = _
  rw [setEntry_entryAt? he]
  split
  · rename_i hk
    rw [hk, payload?, he]
    rfl
  · rfl

theorem decrement?_dead_payload? {p : Payload} (hd : heap.decrement? h = some (.dead p, next)) :
    heap.payload? h = some p ∧
      ∀ k, next.payload? k = if k = h then none else heap.payload? k := by
  obtain ⟨e, he, ⟨_, ⟨⟩, _⟩ | ⟨_, hr, rfl⟩⟩ := decrement?_eq_some hd
  cases hr
  refine ⟨(payload?_eq_some_iff heap h _).2 ⟨e, he, rfl⟩, fun k => ?_⟩
  unfold payload?
  rw [vacate_entryAt? he]
  split <;> rfl

theorem decrement?_units {r : Released} (hd : heap.decrement? h = some (r, next)) :
    next.units + r.units = heap.units := by
  obtain ⟨e, he, ⟨_, rfl, rfl⟩ | ⟨_, rfl, rfl⟩⟩ := decrement?_eq_some hd
  · have hu := setEntry_tally HeapSlot.units he { e with refcount := e.refcount - 1 }
    exact (add_zero _).trans (add_right_cancel hu)
  · have hs := (entryAt?_eq_some_iff heap h e).1 he
    have hu := tally_set HeapSlot.units heap heap.free heap.stats _ _ ⟨h.generation + 1, none⟩ hs
    exact hu.trans (add_zero _)

theorem decrement?_inOrder {r : Released} (hd : heap.decrement? h = some (r, next))
    (ho : heap.InOrder) : next.InOrder := by
  have hlive := ho.live
  have halloc := ho.allocations
  have hacq := ho.acquires
  obtain ⟨e, he, ⟨hpos, _, rfl⟩ | ⟨hle, _, rfl⟩⟩ := decrement?_eq_some hd
  · have hocc := setEntry_tally HeapSlot.occupancy he { e with refcount := e.refcount - 1 }
    have hcount := setEntry_tally HeapSlot.refcount he { e with refcount := e.refcount - 1 }
    refine ⟨?_, halloc, ?_, ?_, ho.free_nodup, setEntry_free he _ ho⟩
    · exact hlive.trans (add_right_cancel hocc).symm
    · change heap.stats.acquires = heap.stats.releases + 1 + tally _ (heap.setEntry h _)
      simp only [HeapSlot.refcount] at hcount
      simp only [refcounts] at hacq
      omega
    · intro k e' hk
      have hk' : (heap.setEntry h { e with refcount := e.refcount - 1 }).entryAt? k = some e' := hk
      rw [setEntry_entryAt? he] at hk'
      split at hk'
      · simp only [Option.some.injEq] at hk'
        rw [← hk']
        exact hpos
      · exact ho.positive k e' hk'
  · have hone : e.refcount = 1 := le_antisymm hle (ho.positive h e he)
    have hs := (entryAt?_eq_some_iff heap h e).1 he
    have hlt : h.index < heap.slots.size := (Array.getElem?_eq_some_iff.1 hs).1
    let stats : Stats :=
      { heap.stats with
        releases := heap.stats.releases + 1
        deallocations := heap.stats.deallocations + 1
        live := heap.stats.live - 1 }
    let vacated : Heap :=
      ⟨heap.slots.setIfInBounds h.index ⟨h.generation + 1, none⟩, h.index :: heap.free, stats⟩
    have hocc : vacated.occupied + 1 = heap.occupied + 0 :=
      tally_set HeapSlot.occupancy heap (h.index :: heap.free) stats _ _ ⟨_, none⟩ hs
    have hcount : vacated.refcounts + e.refcount = heap.refcounts + 0 :=
      tally_set HeapSlot.refcount heap (h.index :: heap.free) stats _ _ ⟨_, none⟩ hs
    have hbusy : h.index ∉ heap.free := by
      rw [ho.free_iff, hs]
      simp
    refine ⟨?_, ?_, ?_, ?_, ?_, ?_⟩
    · change heap.stats.live - 1 = vacated.occupied
      omega
    · change heap.stats.allocations = heap.stats.deallocations + 1 + (heap.stats.live - 1)
      omega
    · change heap.stats.acquires = heap.stats.releases + 1 + vacated.refcounts
      omega
    · intro k e' hk
      rw [vacate_entryAt? he] at hk
      split at hk
      · simp at hk
      · exact ho.positive k e' hk
    · exact List.nodup_cons.2 ⟨hbusy, ho.free_nodup⟩
    · intro i
      change i ∈ h.index :: heap.free ↔ ∃ g, (heap.slots.setIfInBounds _ _)[i]? = some ⟨g, none⟩
      by_cases hi : i = h.index
      · subst hi
        rw [Array.getElem?_setIfInBounds_self_of_lt hlt]
        simp
      · rw [Array.getElem?_setIfInBounds_ne (Ne.symm hi), ← ho.free_iff]
        simp [hi]

theorem refcount_eq (heap : Heap) (h : Handle) :
    heap.refcount h = (heap.entryAt? h).elim 0 HeapEntry.refcount := by
  unfold refcount
  cases heap.entryAt? h <;> rfl

theorem insert_refcount (ho : heap.InOrder) (p : Payload) (k : Handle) :
    (heap.insert p).2.refcount k =
      heap.refcount k + Multiset.count k {(heap.insert p).1} := by
  rw [refcount_eq, refcount_eq, insert_entryAt? ho, Multiset.count_singleton]
  by_cases hk : k = (heap.insert p).1
  · rw [hk, insert_fresh ho]
    simp
  · simp [hk]

theorem increment?_refcount {n : Nat} (hi : heap.increment? h = some (n, next)) (k : Handle) :
    next.refcount k = heap.refcount k + Multiset.count k {h} := by
  obtain ⟨e, he, hnext⟩ := increment?_entryAt? hi
  rw [refcount_eq, refcount_eq, hnext, Multiset.count_singleton]
  by_cases hk : k = h
  · simp [hk, he]
  · simp [hk]

theorem setPayload_refcount (heap : Heap) (h : Handle) (p : Payload) (k : Handle) :
    (heap.setPayload h p).refcount k = heap.refcount k := by
  cases he : heap.entryAt? h with
  | none => simp [setPayload, he]
  | some e =>
    rw [refcount_eq, refcount_eq, setPayload_entryAt? he]
    by_cases hk : k = h
    · simp [hk, he]
    · simp [hk]

theorem decrement?_refcount {r : Released} (ho : heap.InOrder)
    (hd : heap.decrement? h = some (r, next)) (k : Handle) :
    next.refcount k + Multiset.count k {h} = heap.refcount k := by
  obtain ⟨e, he, hpos, hnext⟩ := decrement?_entryAt? ho hd
  rw [refcount_eq, refcount_eq, hnext, Multiset.count_singleton]
  by_cases hk : k = h
  · by_cases hone : e.refcount = 1
    · simp [hk, he, hone]
    · simp only [hk, he, hone, ↓reduceIte, Option.elim_some]
      omega
  · simp [hk]

theorem isAlive_iff_refcount_pos (ho : heap.InOrder) (h : Handle) :
    heap.isAlive h = true ↔ 0 < heap.refcount h := by
  rw [isAlive_iff, refcount_eq]
  constructor
  · rintro ⟨e, he⟩
    have hpos := ho.positive h e he
    simp only [he, Option.elim_some]
    omega
  · intro hpos
    cases he : heap.entryAt? h with
    | none => simp [he] at hpos
    | some e => exact ⟨e, rfl⟩

theorem refcount_of_gone {k : Handle} (hk : heap.entryAt? k = none) : heap.refcount k = 0 := by
  rw [refcount_eq, hk]
  rfl

theorem refcount_pos {k : Handle} {q : Payload} (ho : heap.InOrder)
    (hk : heap.payload? k = some q) : 0 < heap.refcount k := by
  obtain ⟨e, he, -⟩ := (payload?_eq_some_iff heap k q).1 hk
  exact (isAlive_iff_refcount_pos ho k).1 ((isAlive_iff heap k).2 ⟨e, he⟩)

theorem payload?_of_pos {k : Handle} (ho : heap.InOrder) (hk : 0 < heap.refcount k) :
    ∃ q, heap.payload? k = some q := by
  obtain ⟨e, he⟩ := (isAlive_iff heap k).1 ((isAlive_iff_refcount_pos ho k).2 hk)
  exact ⟨e.payload, (payload?_eq_some_iff heap k _).2 ⟨e, he, rfl⟩⟩

theorem Step.inOrder (s : Step heap next) (ho : heap.InOrder) : next.InOrder := by
  cases s with
  | insert p => exact insert_inOrder ho p
  | increment done => exact increment?_inOrder done ho
  | decrement done => exact decrement?_inOrder done ho
  | setPayload h p => exact setPayload_inOrder ho h p

theorem inOrder_of_steps (s : Relation.ReflTransGen Step heap next) (ho : heap.InOrder) :
    next.InOrder := by
  induction s with
  | refl => exact ho
  | tail _ last ih => exact last.inOrder ih

theorem Reached.inOrder (hr : heap.Reached) : heap.InOrder := inOrder_of_steps hr empty_inOrder

theorem occupied_pos (he : heap.entryAt? h = some e) : 1 ≤ heap.occupied := by
  have hvacate := tally_set HeapSlot.occupancy heap heap.free heap.stats h.index _
    ⟨h.generation, none⟩ ((entryAt?_eq_some_iff heap h e).1 he)
  have hone : HeapSlot.occupancy ⟨h.generation, some e⟩ = 1 := rfl
  have hzero : HeapSlot.occupancy ⟨h.generation, none⟩ = 0 := rfl
  unfold occupied
  omega

theorem live_pos (ho : heap.InOrder) (hh : heap.isAlive h = true) : 1 ≤ heap.stats.live := by
  obtain ⟨e, he⟩ := (isAlive_iff heap h).1 hh
  rw [ho.live]
  exact occupied_pos he

theorem decrement?_live (ho : heap.InOrder) {r : Released}
    (hd : heap.decrement? h = some (r, next)) :
    match r with
    | .alive _ => next.stats.live = heap.stats.live
    | .dead _ => next.stats.live + 1 = heap.stats.live := by
  obtain ⟨e, he, ⟨_, rfl, rfl⟩ | ⟨_, rfl, rfl⟩⟩ := decrement?_eq_some hd
  · rfl
  · exact Nat.sub_add_cancel (live_pos ho ((isAlive_iff heap h).2 ⟨e, he⟩))

/-- What the accounts, the counts and the free list of a heap say, each by what it is for. -/
structure Ledger (heap : Heap) : Prop where
  live_occupied : heap.stats.live = heap.occupied
  live_difference : heap.stats.live = heap.stats.allocations - heap.stats.deallocations
  deallocations_le : heap.stats.deallocations ≤ heap.stats.allocations
  counts_difference : heap.stats.acquires - heap.stats.releases = heap.refcounts
  releases_le : heap.stats.releases ≤ heap.stats.acquires
  /-- Every occupied slot has a unit to lose. -/
  positive : ∀ (i : Nat) (g : UInt32) (e : HeapEntry),
    heap.slots[i]? = some ⟨g, some e⟩ → 1 ≤ e.refcount
  /-- Where there is an object to lose, the account of live objects counts it. -/
  live_positive : ∀ (i : Nat) (g : UInt32) (e : HeapEntry),
    heap.slots[i]? = some ⟨g, some e⟩ → 1 ≤ heap.stats.live
  free_nodup : heap.free.Nodup
  free_vacant : ∀ i, i ∈ heap.free ↔ ∃ g, heap.slots[i]? = some ⟨g, none⟩
  /-- The handle of a new object is none that is alive. -/
  insert_fresh : ∀ p, heap.isAlive (heap.insert p).1 = false
  /-- A new object is written over no live one. -/
  insert_kept : ∀ p k, heap.isAlive k = true → (heap.insert p).2.entryAt? k = heap.entryAt? k

theorem InOrder.ledger (ho : heap.InOrder) : heap.Ledger := by
  have hslot : ∀ i g e, heap.slots[i]? = some ⟨g, some e⟩ → heap.entryAt? ⟨i, g⟩ = some e :=
    fun i g e hs => (entryAt?_eq_some_iff heap ⟨i, g⟩ e).2 hs
  have hfresh : ∀ p, heap.isAlive (heap.insert p).1 = false := fun p => by
    simp [isAlive, insert_fresh ho p]
  refine
    { live_occupied := ho.live
      live_difference := by have h := ho.allocations; omega
      deallocations_le := by have h := ho.allocations; omega
      counts_difference := by have h := ho.acquires; omega
      releases_le := by have h := ho.acquires; omega
      positive := fun i g e hs => ho.positive _ e (hslot i g e hs)
      live_positive := fun i g e hs => ?_
      free_nodup := ho.free_nodup
      free_vacant := ho.free_iff
      insert_fresh := hfresh
      insert_kept := fun p k hk => ?_ }
  · rw [ho.live]
    exact occupied_pos (hslot i g e hs)
  · have hne : k ≠ (heap.insert p).1 := by
      rintro rfl
      rw [hfresh] at hk
      cases hk
    rw [insert_entryAt? ho, if_neg hne]

end Causeway.Heap
