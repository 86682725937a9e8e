import Causeway.Proofs.ProgramRuns
import Mathlib.Data.Fintype.Pigeonhole
/-!
# Leaks are cycles

With no owner outside the heap, every unit on a live object is owned by a live object. Going from
owner to owner never ends, and there are only so many objects, so it goes round: whatever is left
hangs on a cycle. Nothing of this depends on the order in which objects were given up.
-/
set_option autoImplicit false

namespace Causeway

namespace Heap

variable {heap : Heap} {a b h : Handle}

def Owns (heap : Heap) (a b : Handle) : Prop := ∃ p, heap.payload? a = some p ∧ b ∈ p.units

theorem Owns.isAlive (hab : heap.Owns a b) : heap.isAlive a = true := by
  obtain ⟨p, hp, _⟩ := hab
  obtain ⟨e, he, _⟩ := (payload?_eq_some_iff heap a p).1 hp
  exact (isAlive_iff heap a).2 ⟨e, he⟩

theorem mem_sum_map {α β : Type} {f : α → Multiset β} {xs : List α} {b : β}
    (hb : b ∈ (xs.map f).sum) : ∃ x ∈ xs, b ∈ f x := by
  induction xs with
  | nil => exact absurd hb (Multiset.notMem_zero b)
  | cons x xs ih =>
    rw [List.map_cons, List.sum_cons, Multiset.mem_add] at hb
    obtain hb | hb := hb
    · exact ⟨x, List.mem_cons_self, hb⟩
    · obtain ⟨y, hy, hb⟩ := ih hb
      exact ⟨y, List.mem_cons_of_mem _ hy, hb⟩

theorem exists_entry {g : UInt32} {e : HeapEntry} (hs : ⟨g, some e⟩ ∈ heap.slots.toList) :
    ∃ i, heap.entryAt? ⟨i, g⟩ = some e := by
  obtain ⟨i, hi⟩ := List.mem_iff_getElem?.1 hs
  exact ⟨i, (entryAt?_eq_some_iff heap ⟨i, g⟩ e).2 (by simpa using hi)⟩

theorem exists_owner (hb : b ∈ heap.units) : ∃ a, heap.Owns a b := by
  obtain ⟨⟨g, entry⟩, hs, hb⟩ := mem_sum_map hb
  cases entry with
  | none => exact absurd hb (Multiset.notMem_zero b)
  | some e =>
    obtain ⟨i, he⟩ := exists_entry hs
    exact ⟨⟨i, g⟩, e.payload, (payload?_eq_some_iff heap _ _).2 ⟨e, he, rfl⟩, hb⟩

theorem eq_of_index_eq {k : Handle} (hh : heap.isAlive h = true) (hk : heap.isAlive k = true)
    (hindex : h.index = k.index) : h = k := by
  obtain ⟨e, he⟩ := (isAlive_iff heap h).1 hh
  obtain ⟨e', he'⟩ := (isAlive_iff heap k).1 hk
  have hs := (entryAt?_eq_some_iff heap h e).1 he
  rw [hindex, (entryAt?_eq_some_iff heap k e').1 he'] at hs
  have hgeneration : k.generation = h.generation :=
    congrArg HeapSlot.generation (Option.some.inj hs)
  exact congrArg₂ Handle.mk hindex hgeneration.symm

theorem alive_finite (heap : Heap) : Finite {h : Handle // heap.isAlive h = true} := by
  have hlt : ∀ h : {h : Handle // heap.isAlive h = true}, h.1.index < heap.slots.size := fun h => by
    obtain ⟨e, he⟩ := (isAlive_iff heap h.1).1 h.2
    exact (Array.getElem?_eq_some_iff.1 ((entryAt?_eq_some_iff heap h.1 e).1 he)).1
  refine Finite.of_injective (fun h => (⟨h.1.index, hlt h⟩ : Fin heap.slots.size)) ?_
  intro h k hhk
  exact Subtype.ext (eq_of_index_eq h.2 k.2 (congrArg Fin.val hhk))

theorem occupied_eq_zero (h : ∀ k, heap.isAlive k = false) : heap.occupied = 0 := by
  apply List.sum_eq_zero
  intro n hn
  obtain ⟨⟨g, entry⟩, hs, rfl⟩ := List.mem_map.1 hn
  cases entry with
  | none => rfl
  | some e =>
    obtain ⟨i, he⟩ := exists_entry hs
    have halive := (isAlive_iff heap ⟨i, g⟩).2 ⟨e, he⟩
    rw [h] at halive
    cases halive

end Heap

/-- Where everything has something behind it and there are finitely many things, a cycle is behind
everything. -/
theorem exists_cycle_behind {α : Type} [Finite α] {r : α → α → Prop} (hr : ∀ b, ∃ a, r a b)
    (b : α) : ∃ c, Relation.TransGen r c c ∧ Relation.ReflTransGen r c b := by
  choose behind hbehind using hr
  have walk : ∀ n m, Relation.ReflTransGen r (behind^[n + m] b) (behind^[m] b) := by
    intro n m
    induction n with
    | zero =>
      rw [Nat.zero_add]
    | succ n ih =>
      rw [Nat.succ_add, Function.iterate_succ_apply']
      exact .head (hbehind _) ih
  -- the walk comes to one place twice, and what lies between is a cycle
  obtain ⟨m, n, hne, heq⟩ := Finite.exists_ne_map_eq_of_infinite fun n => behind^[n] b
  wlog hlt : m < n generalizing m n
  · exact this n m (Ne.symm hne) heq.symm (by omega)
  obtain ⟨k, rfl⟩ : ∃ k, n = k + 1 + m := ⟨n - m - 1, by omega⟩
  refine ⟨behind^[m] b, ?_, walk m 0⟩
  have hstep : Relation.TransGen r (behind^[k + 1 + m] b) (behind^[m] b) := by
    rw [Nat.add_right_comm, Function.iterate_succ_apply']
    exact .head' (hbehind _) (walk k m)
  simpa only [← heq] using hstep

/-- If only live objects own units, what is left hangs on cycles. -/
theorem Heap.exists_cycle {heap : Heap}
    (howned : ∀ k, heap.isAlive k = true → k ∈ heap.units) {k : Handle}
    (hk : heap.isAlive k = true) :
    ∃ c, Relation.TransGen heap.Owns c c ∧ Relation.ReflTransGen heap.Owns c k := by
  have := heap.alive_finite
  have hpred : ∀ b : {h : Handle // heap.isAlive h = true},
      ∃ a : {h : Handle // heap.isAlive h = true}, heap.Owns a.1 b.1 := fun b => by
    obtain ⟨a, ha⟩ := Heap.exists_owner (howned b.1 b.2)
    exact ⟨⟨a, ha.isAlive⟩, ha⟩
  obtain ⟨c, hcycle, hreach⟩ := exists_cycle_behind hpred ⟨k, hk⟩
  exact ⟨c.1, hcycle.lift Subtype.val fun _ _ h => h, hreach.lift Subtype.val fun _ _ h => h⟩

theorem audit_run {U : Type} (env : Env U) (w : World U) :
    ∃ w', audit env w = .done w.heap.stats.live w' ∧ w'.heap = w.heap := by
  unfold audit stats
  simp only [Act.bind_run, Act.heap]
  split <;> exact ⟨_, rfl, rfl⟩

theorem shutDown_run {U : Type} (env : Env U) (w : World U) :
    ∃ w', shutDown env w = .done w.heap.stats.live w' ∧ w'.heap = w.heap := by
  obtain ⟨w', hrun, hheap⟩ := audit_run env w
  unfold shutDown
  rw [Act.bind_run, hrun]
  exact ⟨_, rfl, hheap⟩

namespace Machine.Program

open Heap

variable {n : Nat} {w : World Client}

theorem Between.owned (h : Between (envOf n) w) (hempty : w.client.registers.units = [])
    (k : Handle) (hk : w.heap.isAlive k = true) : k ∈ w.heap.units := by
  obtain ⟨hx, _⟩ := h.exact
  have hpos := (isAlive_iff_refcount_pos hx.inOrder k).1 hk
  rw [hx.counted, h.units, hempty] at hpos
  exact Multiset.count_pos.1 (by simpa using hpos)

/-- Once the registers own nothing, whatever is alive hangs on a cycle, and without a cycle the
audits find nothing alive. -/
theorem Between.alive_behind_cycle (h : Between (envOf n) w)
    (hempty : w.client.registers.units = []) :
    (∀ k, w.heap.isAlive k = true →
      ∃ c, Relation.TransGen w.heap.Owns c c ∧ Relation.ReflTransGen w.heap.Owns c k) ∧
    ((∀ c, ¬ Relation.TransGen w.heap.Owns c c) → ∀ env : Env Client,
      (∃ w', audit env w = .done 0 w') ∧ ∃ w', shutDown env w = .done 0 w') := by
  refine ⟨fun k hk => exists_cycle (h.owned hempty) hk, fun hacyclic env => ?_⟩
  have hdead : ∀ k, w.heap.isAlive k = false := fun k => by
    refine Bool.eq_false_iff.2 fun hk => ?_
    obtain ⟨c, hcycle, _⟩ := exists_cycle (h.owned hempty) hk
    exact hacyclic c hcycle
  have hlive : w.heap.stats.live = 0 := by
    rw [h.exact.1.inOrder.live]
    exact occupied_eq_zero hdead
  obtain ⟨w₁, haudit, _⟩ := audit_run env w
  obtain ⟨w₂, hshutDown, _⟩ := shutDown_run env w
  rw [hlive] at haudit hshutDown
  exact ⟨⟨w₁, haudit⟩, w₂, hshutDown⟩

/-- A list that is appended to itself outlives its register. -/
theorem alive_behind_cycle_list : ∃ e₁ e₂ e₃ w₁ w₂ w₃,
    runOp [] (.op (.new (.list [])) (some "a") none false) (envOf 3) (start false {}) =
      .done e₁ w₁ ∧
    runOp [] (.op (.append "a" (.ref "a")) none none false) (envOf 3) w₁ = .done e₂ w₂ ∧
    runOp [] (.op (.drop "a") none none false) (envOf 3) w₂ = .done e₃ w₃ ∧
    w₃.client.registers.units = [] ∧ w₃.heap.isAlive ⟨0, 0⟩ = true ∧
    ∃ c, Relation.TransGen w₃.heap.Owns c c ∧ Relation.ReflTransGen w₃.heap.Owns c ⟨0, 0⟩ := by
  have hnew : Op.Plain (.op (.new (.list [])) (some "a") none false) := .scriptless rfl rfl
  have happend : Op.Plain (.op (.append "a" (.ref "a")) none none false) := .scriptless rfl rfl
  have hdrop : Op.Plain (.op (.drop "a") none none false) := .scriptless rfl rfl
  refine ⟨_, _, _, _, _, _, rfl, rfl, rfl, rfl, rfl, ?_⟩
  have hbetween : Between (envOf 3) _ :=
    .op (.op (.op (.start false {}) hnew rfl) happend rfl) hdrop rfl
  exact (hbetween.alive_behind_cycle rfl).1 ⟨0, 0⟩ rfl

end Machine.Program

end Causeway
