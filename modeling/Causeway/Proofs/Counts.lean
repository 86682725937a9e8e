import Causeway.Proofs.Overlay
/-!
# Counts

Steps that take references or give them back and do nothing else: an object is acquired or made, one
of several references is given back, or the last one to an object that goes without a trace.
-/
set_option autoImplicit false

namespace Causeway

open Act

variable {U : Type} {env : Env U} {w w' w₁ w₂ : World U} {V V' : Multiset Handle} {h k : Handle}
  {p q : Payload}

structure Taken (V : Multiset Handle) (w w' : World U) : Prop where
  inOrder : w'.heap.InOrder
  pending : w'.pending = w.pending
  counts : ∀ k, w'.heap.refcount k = w.heap.refcount k + V.count k
  kept : ∀ k q, w.heap.payload? k = some q → w'.heap.payload? k = some q

structure GivenBack (V : Multiset Handle) (w w' : World U) : Prop where
  inOrder : w'.heap.InOrder
  pending : w'.pending = w.pending
  counts : ∀ k, w'.heap.refcount k + V.count k = w.heap.refcount k
  kept : ∀ k, 0 < w'.heap.refcount k → w'.heap.payload? k = w.heap.payload? k

theorem Taken.trans (h₁ : Taken V w w₁) (h₂ : Taken V' w₁ w₂) : Taken (V + V') w w₂ where
  inOrder := h₂.inOrder
  pending := h₂.pending.trans h₁.pending
  counts k := by rw [h₂.counts, h₁.counts, Multiset.count_add, add_assoc]
  kept k q hq := h₂.kept k q (h₁.kept k q hq)

theorem GivenBack.trans (h₁ : GivenBack V w w₁) (h₂ : GivenBack V' w₁ w₂) :
    GivenBack (V + V') w w₂ where
  inOrder := h₂.inOrder
  pending := h₂.pending.trans h₁.pending
  counts k := by
    have hfirst := h₁.counts k
    have hsecond := h₂.counts k
    rw [Multiset.count_add]
    omega
  kept k hk := by
    have hsecond := h₂.counts k
    exact (h₂.kept k hk).trans (h₁.kept k (by omega))

/-- What has a reference besides the one that is given back is still there. -/
theorem GivenBack.still (hback : GivenBack {h} w w') (ho : w.heap.InOrder)
    (hk : w.heap.payload? k = some q) (hleft : k = h → 1 < w.heap.refcount h) :
    w'.heap.payload? k = some q := by
  have hpos := Heap.refcount_pos ho hk
  have hcount := hback.counts k
  rw [Multiset.count_singleton] at hcount
  refine (hback.kept k ?_).trans hk
  split at hcount
  · rename_i heq
    have hmany := hleft heq
    rw [← heq] at hmany
    omega
  · omega

theorem acquire_taken (ho : w.heap.InOrder) (hh : 0 < w.heap.refcount h) (env : Env U) :
    ∃ w', acquire h env w = .done h w' ∧ Taken {h} w w' := by
  obtain ⟨n, w', hi, hrun, hpending⟩ :=
    acquire_next env ((Heap.isAlive_iff_refcount_pos ho h).2 hh)
  exact ⟨w', hrun, Heap.increment?_inOrder hi ho, hpending, Heap.increment?_refcount hi,
    fun k _ hq => (Heap.increment?_payload? hi k).trans hq⟩

theorem alloc_taken (ho : w.heap.InOrder) (p : Payload) (env : Env U) :
    ∃ h w', alloc p env w = .done h w' ∧ Taken {h} w w' ∧ w.heap.entryAt? h = none ∧
      w'.heap.payload? h = some p := by
  obtain ⟨w', hrun, hpending, hheap⟩ := alloc_run p env w
  refine ⟨(w.heap.insert p).1, w', hrun, ⟨?_, hpending, ?_, fun k q hq => ?_⟩,
    Heap.insert_fresh ho p, ?_⟩
  · exact hheap ▸ Heap.insert_inOrder ho p
  · exact hheap ▸ Heap.insert_refcount ho p
  · rw [hheap, Heap.insert_kept ho p hq]
  · rw [hheap, Heap.insert_payload? ho, if_pos rfl]

theorem releaseNow_more (ho : w.heap.InOrder) (hmany : 1 < w.heap.refcount h) (env : Env U) :
    ∃ w', releaseNow h env w = .done () w' ∧ GivenBack {h} w w' := by
  obtain ⟨e, he⟩ := (Heap.isAlive_iff _ _).1 ((Heap.isAlive_iff_refcount_pos ho h).2 (by omega))
  rw [Heap.refcount_eq, he, Option.elim_some] at hmany
  obtain ⟨hd, _⟩ | ⟨n, heap, w', hd, hnoted, hrun⟩ | ⟨p, heap, w', hd, _⟩ :=
    releaseNow_cases h env w
  · simp [Heap.decrement?, he] at hd
  · obtain ⟨hpending, hheap⟩ := hnoted.kept
    refine ⟨w', hrun, ?_, hpending, ?_, fun k _ => ?_⟩
    · exact hheap ▸ Heap.decrement?_inOrder hd ho
    · exact hheap ▸ Heap.decrement?_refcount ho hd
    · exact hheap ▸ Heap.decrement?_alive_payload? hd k
  · obtain ⟨e', he', ⟨_, ⟨⟩, _⟩ | ⟨hlast, _⟩⟩ := Heap.decrement?_eq_some hd
    obtain rfl := Option.some.inj (he.symm.trans he')
    omega

/-- The last reference is given back, and then what the object owns. -/
theorem releaseNow_last (ho : w.heap.InOrder) (hlast : w.heap.refcount h = 1)
    (hp : w.heap.payload? h = some p) (hdrops : p.Drops) (env : Env U) :
    ∃ w', releaseNow h env w = releaseAll p.units env w' ∧ GivenBack {h} w w' := by
  obtain ⟨e, he, rfl⟩ := (Heap.payload?_eq_some_iff w.heap h p).1 hp
  rw [Heap.refcount_eq, he, Option.elim_some] at hlast
  obtain ⟨next, hd⟩ : ∃ next, w.heap.decrement? h = some (.dead e.payload, next) := by
    simp [Heap.decrement?, he, hlast]
  obtain ⟨w₁, hrun, hnoted⟩ :=
    traced_run (.deallocated h e.payload.typeName) env { w with heap := next }
  obtain ⟨hpending, hheap⟩ := hnoted.kept
  obtain ⟨w₂, hnoted₂, hdispose⟩ := dispose_drops hdrops env w₁
  obtain ⟨hpending₂, hheap₂⟩ := hnoted₂.kept
  rw [hheap] at hheap₂
  obtain ⟨-, hothers⟩ := Heap.decrement?_dead_payload? hd
  have hcounts := Heap.decrement?_refcount ho hd
  refine ⟨w₂, ?_, hheap₂ ▸ Heap.decrement?_inOrder hd ho, hpending₂.trans hpending,
    hheap₂ ▸ hcounts, fun k hk => ?_⟩
  · simp [releaseNow, bind_run, updateHeap?, hd, hrun, hdispose]
  · have hne : k ≠ h := by
      rintro rfl
      have hcount := hcounts k
      rw [Heap.refcount_eq w.heap, he, Option.elim_some, hlast, Multiset.count_singleton_self]
        at hcount
      rw [hheap₂] at hk
      change 0 < next.refcount k at hk
      omega
    rw [hheap₂]
    exact (hothers k).trans (if_neg hne)

/-- A reference to an object that has others, or to a text, is given back with nothing else. -/
theorem releaseNow_item (ho : w.heap.InOrder) (halive : 0 < w.heap.refcount h)
    (hitem : 1 < w.heap.refcount h ∨ ∃ t, w.heap.payload? h = some (.str t)) (env : Env U) :
    ∃ w', releaseNow h env w = .done () w' ∧ GivenBack {h} w w' := by
  by_cases hmany : 1 < w.heap.refcount h
  · exact releaseNow_more ho hmany env
  · obtain ⟨t, ht⟩ := hitem.resolve_left hmany
    obtain ⟨w', hrun, hback⟩ := releaseNow_last ho (by omega) ht (by simp [Payload.Drops]) env
    exact ⟨w', hrun, hback⟩

end Causeway
