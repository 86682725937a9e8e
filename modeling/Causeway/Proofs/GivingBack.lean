import Causeway.Proofs.CallFailures
import Causeway.Proofs.Keys
/-!
# Giving back in silence

Where nothing that hangs on a unit has a dealloc slot of user code, giving the unit back is heap
work alone: units in hand go one by one, and what an object owned comes to hand with its last unit.
In which order they go is left open here. Giving back comes back with nothing left in hand, as soon
as there is a level for each live object.
-/
set_option autoImplicit false

namespace Causeway

open Act

namespace Heap

variable {heap next : Heap} {h k : Handle} {p : Payload}

inductive GivesBack : Multiset Handle × Heap → Multiset Handle × Heap → Prop where
  | unit {H : Multiset Handle} {heap next : Heap} {h : Handle} {r : Released}
      (done : heap.decrement? h = some (r, next)) : GivesBack ({h} + H, heap) (r.units + H, next)

def Drains : Multiset Handle × Heap → Multiset Handle × Heap → Prop :=
  Relation.ReflTransGen GivesBack

theorem GivesBack.frame {x y : Multiset Handle × Heap} (g : GivesBack x y) (E : Multiset Handle) :
    GivesBack (x.1 + E, x.2) (y.1 + E, y.2) := by
  cases g with
  | unit done =>
    rw [add_assoc, add_assoc]
    exact .unit done

theorem Drains.frame {x y : Multiset Handle × Heap} (d : Drains x y) (E : Multiset Handle) :
    Drains (x.1 + E, x.2) (y.1 + E, y.2) := by
  induction d with
  | refl => exact .refl
  | tail _ last ih => exact ih.tail (last.frame E)

theorem decrement?_shrinks {r : Released} (ho : heap.InOrder)
    (hd : heap.decrement? h = some (r, next)) : heap.Shrinks next := by
  have hlive := decrement?_live ho hd
  cases r with
  | alive m =>
    refine ⟨?_, hlive.le, fun k p found => ?_⟩
    · obtain ⟨e, -, ⟨-, -, rfl⟩ | ⟨-, ⟨⟩, -⟩⟩ := decrement?_eq_some hd
      simp [setEntry]
    · rwa [decrement?_alive_payload? hd] at found
  | dead p =>
    refine ⟨?_, by dsimp only at hlive; omega, fun k p found => ?_⟩
    · obtain ⟨e, -, ⟨-, ⟨⟩, -⟩ | ⟨-, -, rfl⟩⟩ := decrement?_eq_some hd
      simp
    · rw [(decrement?_dead_payload? hd).2] at found
      split at found
      · cases found
      · exact found

theorem GivesBack.inOrder {x y : Multiset Handle × Heap} (g : GivesBack x y) (ho : x.2.InOrder) :
    y.2.InOrder := by
  cases g with
  | unit done => exact decrement?_inOrder done ho

theorem Drains.shrinks {x y : Multiset Handle × Heap} (d : Drains x y) (ho : x.2.InOrder) :
    x.2.Shrinks y.2 ∧ y.2.InOrder := by
  induction d with
  | refl => exact ⟨.refl _, ho⟩
  | tail _ last ih =>
    refine ⟨ih.1.trans ?_, last.inOrder ih.2⟩
    cases last with
    | unit done => exact decrement?_shrinks ih.2 done

/-- What gives up an object that hangs on `h` runs no user code. -/
def Silent (heap : Heap) (h : Handle) : Prop :=
  ∀ k p, Relation.ReflTransGen heap.Owns h k → heap.payload? k = some p → p.Drops

theorem Silent.units (hs : heap.Silent h) (found : heap.payload? h = some p) :
    p.Drops ∧ ∀ k ∈ p.units, heap.Silent k :=
  ⟨hs h p .refl found, fun _ hk j q reach => hs j q (.head ⟨p, found, hk⟩ reach)⟩

theorem Silent.of_shrinks (hs : heap.Silent h) (shrinks : heap.Shrinks next) : next.Silent h := by
  intro k p reach found
  refine hs k p ?_ (shrinks.payload k p found)
  exact Relation.ReflTransGen.mono (fun a b ⟨q, hq, hb⟩ => ⟨q, shrinks.payload a q hq, hb⟩) _ _ reach

end Heap

variable {U : Type} {env : Env U} {w : World U} {E H H' : Multiset Handle} {h : Handle} {n : Nat}

/-- Without a client that owns anything only the heap enters the books. -/
theorem Exact.of_heap_eq {w' : World U} (hx : Exact .blank H w) (hheap : w'.heap = w.heap) :
    Exact .blank H w' :=
  ⟨hheap ▸ hx.inOrder, fun k => by rw [hheap]; exact hx.counted k, trivial⟩

theorem Exact.blank {O : Ownership U} (hx : Exact O H w) :
    Exact .blank (H + O.units w.client) w :=
  ⟨hx.inOrder, fun k => (hx.counted k).trans (by simp [Ownership.blank]), trivial⟩

theorem Heap.Drains.path {x y : Multiset Handle × Heap} (d : Drains x y) (w : World U) :
    Path .blank .strict (x.1, { w with heap := x.2 }) (y.1, { w with heap := y.2 }) := by
  induction d with
  | refl => exact .refl
  | tail _ last ih =>
    cases last with
    | @unit H heap next h r done =>
      exact ih.tail (.decrement (w := { w with heap := heap }) done)

/-- Draining some of the units in hand keeps the counts of the others exact. -/
theorem Heap.Drains.exact {w' : World U} (d : Drains (H, w.heap) (H', w'.heap))
    (hx : Exact .blank (H + E) w) : Exact .blank (H' + E) w' :=
  ((d.path w).exact_frame hx).of_heap_eq rfl

/-- Giving units back drains them, if giving back each of them does. -/
theorem releaseAll_givesBack {hs : List Handle}
    (hstep : ∀ h E w, Exact .blank ({h} + E) w → w.heap.Silent h → w.heap.stats.live ≤ n →
      ∃ w', release h env w = .done () w' ∧ w'.pending = w.pending ∧
        Heap.Drains ({h}, w.heap) (0, w'.heap))
    (hx : Exact .blank (↑hs + E) w) (silent : ∀ h ∈ hs, w.heap.Silent h)
    (hlive : w.heap.stats.live ≤ n) :
    ∃ w', releaseAll hs env w = .done () w' ∧ w'.pending = w.pending ∧
      Heap.Drains (↑hs, w.heap) (0, w'.heap) := by
  induction hs generalizing w with
  | nil => exact ⟨w, rfl, rfl, .refl⟩
  | cons h hs ih =>
    rw [coe_cons, add_assoc] at hx
    obtain ⟨w₁, hrun, hpending, hdrain⟩ := hstep h _ w hx (silent h List.mem_cons_self) hlive
    obtain ⟨hshrinks, -⟩ := hdrain.shrinks hx.inOrder
    have hx₁ := hdrain.exact hx
    rw [zero_add] at hx₁
    obtain ⟨w₂, hrest, hpending₂, hdrain₂⟩ := ih hx₁
      (fun k hk => (silent k (List.mem_cons_of_mem h hk)).of_shrinks hshrinks)
      (hshrinks.live.trans hlive)
    have hfirst := hdrain.frame ↑hs
    rw [zero_add, ← coe_cons] at hfirst
    refine ⟨w₂, ?_, hpending₂.trans hpending, hfirst.trans hdrain₂⟩
    rw [releaseAll, bind_run, onFault_done hrun]
    exact hrest

theorem release_givesBack (deep : env.Deep n) (hx : Exact .blank ({h} + E) w)
    (silent : w.heap.Silent h) (hlive : w.heap.stats.live ≤ n) :
    ∃ w', release h env w = .done () w' ∧ w'.pending = w.pending ∧
      Heap.Drains ({h}, w.heap) (0, w'.heap) := by
  induction n generalizing env h E w with
  | zero =>
    have := Heap.live_pos hx.inOrder (hx.isAlive (h := h) (by simp))
    omega
  | succ n ih =>
    obtain ⟨below, deep, hrelease⟩ := deep
    obtain ⟨e, he⟩ := (Heap.isAlive_iff _ _).1 (hx.isAlive (h := h) (by simp))
    change ∃ w', env.release h w = .done () w' ∧ _
    rw [hrelease]
    cases hd : w.heap.decrement? h with
    | none => simp [Heap.decrement?, he] at hd
    | some r =>
      obtain ⟨r, next⟩ := r
      have hfirst : Heap.Drains ({h} + 0, w.heap) (r.units + 0, next) := .single (.unit hd)
      rw [add_zero, add_zero] at hfirst
      cases r with
      | alive m =>
        obtain ⟨w', hnoted, hrun⟩ := releaseNow_alive below hd
        obtain ⟨hpending, hheap⟩ := hnoted.kept
        exact ⟨w', hrun, hpending, hheap ▸ hfirst⟩
      | dead p =>
        obtain ⟨w₁, hnoted, hrun⟩ := releaseNow_dead below hd
        obtain ⟨hdrops, hunits⟩ := silent.units (Heap.decrement?_dead_payload? hd).1
        obtain ⟨w₂, hnoted₂, hdispose⟩ := dispose_drops hdrops below w₁
        obtain ⟨hpending₂, hheap₂⟩ := hnoted₂.kept
        obtain ⟨hpending₁, hheap₁⟩ := hnoted.kept
        obtain rfl : w₂.heap = next := hheap₂.trans hheap₁
        have hone : w₂.heap.stats.live + 1 = w.heap.stats.live :=
          Heap.decrement?_live hx.inOrder hd
        obtain ⟨w', hrest, hpending, hdrain⟩ :=
          releaseAll_givesBack (fun k E w hx hs hl => ih deep hx hs hl) (hfirst.exact hx)
            (fun k hk => (hunits k hk).of_shrinks (Heap.decrement?_shrinks hx.inOrder hd))
            (by omega)
        refine ⟨w', ?_, hpending.trans (hpending₂.trans hpending₁), hfirst.trans hdrain⟩
        rw [hrun, hdispose, hrest]

theorem releaseAll_drains {hs : List Handle} (deep : env.Deep n)
    (hx : Exact .blank (↑hs + E) w) (silent : ∀ h ∈ hs, w.heap.Silent h)
    (hlive : w.heap.stats.live ≤ n) :
    ∃ w', releaseAll hs env w = .done () w' ∧ w'.pending = w.pending ∧
      Heap.Drains (↑hs, w.heap) (0, w'.heap) :=
  releaseAll_givesBack (fun _ _ _ => release_givesBack deep) hx silent hlive

end Causeway
