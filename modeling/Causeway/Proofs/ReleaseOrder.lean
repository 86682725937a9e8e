import Causeway.Proofs.GivingBack
import Mathlib.Algebra.BigOperators.Group.Finset.Basic
import Mathlib.Algebra.Order.BigOperators.Group.Finset
/-!
# The order of releases

Whichever unit in hand is given back next, what is left in the end is the same. The objects that
die are the least set that takes in every object all of whose units were given back from outside or
are owned in the set; what they own has been given back beside what was in hand at the start, and
the counts of the survivors and the accounts of the heap follow from that alone.

The free list is left out: it keeps the order in which slots were vacated.
-/
set_option autoImplicit false

namespace Causeway

namespace Heap

variable {heap next : Heap} {us given pending H : Multiset Handle} {dead D : Finset Handle}
  {h k : Handle}

def unitsOf (heap : Heap) (h : Handle) : Multiset Handle :=
  (heap.payload? h).elim 0 fun p => ↑p.units

def unitsAmong (heap : Heap) (D : Finset Handle) : Multiset Handle := ∑ d ∈ D, heap.unitsOf d

/-- A live object is in the set if there are no more units on it than those given back from outside
and those owned in the set. -/
def ClosedUnder (heap : Heap) (us : Multiset Handle) (D : Finset Handle) : Prop :=
  ∀ h, heap.isAlive h = true → heap.refcount h ≤ (us + heap.unitsAmong D).count h → h ∈ D

structure Survives (heap : Heap) (dead : Finset Handle) (given : Multiset Handle) (next : Heap) :
    Prop where
  inOrder : next.InOrder
  alive : ∀ d ∈ dead, heap.isAlive d = true
  payload? : ∀ k, next.payload? k = if k ∈ dead then none else heap.payload? k
  refcount : ∀ k, next.refcount k + given.count k = heap.refcount k
  live : next.stats.live + dead.card = heap.stats.live
  allocations : next.stats.allocations = heap.stats.allocations
  deallocations : next.stats.deallocations = heap.stats.deallocations + dead.card
  acquires : next.stats.acquires = heap.stats.acquires
  releases : next.stats.releases = heap.stats.releases + given.card

/-- The invariant of a run that began with `us` in hand. What has died so far is in every closed
set, for its last unit was one of `us` or came from an object that died before. -/
structure Draining (heap : Heap) (us : Multiset Handle) (dead : Finset Handle)
    (given pending : Multiset Handle) (next : Heap) : Prop extends
    heap.Survives dead given next where
  balance : given + pending = us + heap.unitsAmong dead
  least : ∀ D, heap.ClosedUnder us D → dead ⊆ D

theorem Draining.start (ho : heap.InOrder) (us : Multiset Handle) :
    heap.Draining us ∅ 0 us heap where
  inOrder := ho
  alive := by simp
  payload? := by simp
  refcount := by simp
  live := by simp
  allocations := rfl
  deallocations := by simp
  acquires := rfl
  releases := by simp
  balance := by simp [unitsAmong]
  least := by simp

theorem unitsAmong_mono (heap : Heap) (hsub : dead ⊆ D) (h : Handle) :
    (heap.unitsAmong dead).count h ≤ (heap.unitsAmong D).count h :=
  Multiset.count_le_of_le h (Finset.sum_le_sum_of_subset hsub)

theorem Draining.alive_step {n : Nat} {last : Heap}
    (hdr : heap.Draining us dead given ({h} + H) next)
    (hd : next.decrement? h = some (.alive n, last)) :
    heap.Draining us dead ({h} + given) H last := by
  have hlive : last.stats.live = next.stats.live := decrement?_live hdr.inOrder hd
  have hstats : last.stats = { next.stats with releases := next.stats.releases + 1 } := by
    obtain ⟨e, -, ⟨-, -, rfl⟩ | ⟨-, ⟨⟩, -⟩⟩ := decrement?_eq_some hd
    rfl
  refine
    { inOrder := decrement?_inOrder hd hdr.inOrder
      alive := hdr.alive
      payload? := fun k => (decrement?_alive_payload? hd k).trans (hdr.payload? k)
      refcount := fun k => ?_
      live := by rw [hlive, hdr.live]
      allocations := by rw [hstats, hdr.allocations]
      deallocations := by rw [hstats, hdr.deallocations]
      acquires := by rw [hstats, hdr.acquires]
      releases := ?_
      balance := ?_
      least := hdr.least }
  · have hcount := decrement?_refcount hdr.inOrder hd k
    have hbefore := hdr.refcount k
    rw [Multiset.count_add]
    omega
  · rw [hstats]
    simp only [hdr.releases, Multiset.card_add, Multiset.card_singleton]
    omega
  · rw [← hdr.balance]
    abel

theorem Draining.dead_step {p : Payload} {last : Heap}
    (hdr : heap.Draining us dead given ({h} + H) next)
    (hd : next.decrement? h = some (.dead p, last)) :
    heap.Draining us (Insert.insert h dead) ({h} + given) (↑p.units + H) last := by
  obtain ⟨hp, hpayload⟩ := decrement?_dead_payload? hd
  have hfresh : h ∉ dead := fun hmem => by
    rw [hdr.payload?, if_pos hmem] at hp
    cases hp
  have hfound : heap.payload? h = some p := by rwa [hdr.payload?, if_neg hfresh] at hp
  have halive : heap.isAlive h = true := by
    obtain ⟨e, he, -⟩ := (payload?_eq_some_iff heap h p).1 hfound
    exact (isAlive_iff heap h).2 ⟨e, he⟩
  have hcard : (Insert.insert h dead).card = dead.card + 1 := Finset.card_insert_of_notMem hfresh
  have hlive : last.stats.live + 1 = next.stats.live := decrement?_live hdr.inOrder hd
  have hcount := decrement?_refcount hdr.inOrder hd
  obtain ⟨hgone, hstats⟩ : last.refcount h = 0 ∧ last.stats = { next.stats with
      releases := next.stats.releases + 1
      deallocations := next.stats.deallocations + 1
      live := next.stats.live - 1 } := by
    obtain ⟨e, he, ⟨-, ⟨⟩, -⟩ | ⟨-, -, rfl⟩⟩ := decrement?_eq_some hd
    refine ⟨?_, rfl⟩
    rw [refcount_eq, vacate_entryAt? he, if_pos rfl, Option.elim_none]
  have hunits : heap.unitsAmong (Insert.insert h dead) = ↑p.units + heap.unitsAmong dead := by
    rw [unitsAmong, Finset.sum_insert hfresh, unitsOf, hfound]
    rfl
  refine
    { inOrder := decrement?_inOrder hd hdr.inOrder
      alive := fun d hmem => ?_
      payload? := fun k => ?_
      refcount := fun k => ?_
      live := by rw [hcard, ← hdr.live]; omega
      allocations := by rw [hstats, hdr.allocations]
      deallocations := by rw [hstats, hcard, hdr.deallocations]; rfl
      acquires := by rw [hstats, hdr.acquires]
      releases := ?_
      balance := ?_
      least := fun D hD => Finset.insert_subset (hD h halive ?_) (hdr.least D hD) }
  · obtain rfl | hmem := Finset.mem_insert.1 hmem
    · exact halive
    · exact hdr.alive d hmem
  · rw [hpayload, hdr.payload?]
    by_cases hk : k = h
    · simp [hk]
    · simp [hk]
  · have hk := hcount k
    have hbefore := hdr.refcount k
    rw [Multiset.count_add]
    omega
  · rw [hstats]
    simp only [hdr.releases, Multiset.card_add, Multiset.card_singleton]
    omega
  · rw [hunits, add_left_comm us, ← hdr.balance]
    abel
  · -- all units on `h` are among those given back, and those are `us` and what the dead owned
    have hbalance := congrArg (Multiset.count h) hdr.balance
    have hbefore := hdr.refcount h
    have hlast := hcount h
    have hmono := unitsAmong_mono heap (hdr.least D hD) h
    simp only [Multiset.count_add, Multiset.count_singleton_self] at hbalance hlast ⊢
    omega

theorem Draining.of_drains {x y : Multiset Handle × Heap} (d : Drains x y)
    (hdr : heap.Draining us dead given x.1 x.2) :
    ∃ dead' given', heap.Draining us dead' given' y.1 y.2 := by
  induction d with
  | refl => exact ⟨dead, given, hdr⟩
  | tail _ last ih =>
    obtain ⟨dead', given', ih⟩ := ih
    cases last with
    | @unit H next last h r done =>
      cases r with
      | alive n =>
        refine ⟨dead', {h} + given', ?_⟩
        simpa [Released.units] using ih.alive_step done
      | dead p => exact ⟨Insert.insert h dead', {h} + given', ih.dead_step done⟩

theorem Draining.closed (hdr : heap.Draining us dead given 0 next) : heap.ClosedUnder us dead := by
  intro h alive hle
  by_contra hnot
  have hbalance := congrArg (Multiset.count h) hdr.balance
  rw [add_zero] at hbalance
  have hcount := hdr.refcount h
  have hzero : next.refcount h = 0 := by omega
  obtain ⟨e, he⟩ := (isAlive_iff heap h).1 alive
  have hpayload : next.payload? h = some e.payload := by
    rw [hdr.payload?, if_neg hnot]
    exact (payload?_eq_some_iff heap h _).2 ⟨e, he, rfl⟩
  obtain ⟨e', he', -⟩ := (payload?_eq_some_iff next h _).1 hpayload
  have hpos := (isAlive_iff_refcount_pos hdr.inOrder h).1 ((isAlive_iff next h).2 ⟨e', he'⟩)
  omega

theorem Survives.entryAt? (hs : heap.Survives dead given next) (k : Handle) :
    next.entryAt? k = if k ∈ dead then none else
      (heap.entryAt? k).map fun e => ⟨e.refcount - given.count k, e.payload⟩ := by
  have hpayload := hs.payload? k
  have hcount := hs.refcount k
  simp only [Heap.payload?, refcount_eq] at hpayload hcount
  by_cases hk : k ∈ dead
  · simpa [hk] using hpayload
  · rw [if_neg hk] at hpayload ⊢
    cases he : heap.entryAt? k with
    | none => simpa [he] using hpayload
    | some e =>
      rw [he] at hpayload hcount
      obtain ⟨⟨n, p⟩, he', hp⟩ := Option.map_eq_some_iff.1 hpayload
      rw [he'] at hcount ⊢
      simp only [Option.elim_some] at hcount hp
      simp only [Option.map_some, Option.some.injEq, HeapEntry.mk.injEq]
      exact ⟨by omega, hp⟩

theorem Survives.isAlive (hs : heap.Survives dead given next) (alive : heap.isAlive h = true) :
    next.isAlive h = false ↔ h ∈ dead := by
  obtain ⟨e, he⟩ := (isAlive_iff heap h).1 alive
  rw [Heap.isAlive, hs.entryAt?, he]
  by_cases hdead : h ∈ dead <;> simp [hdead]

theorem Survives.stats (hs : heap.Survives dead given next) :
    next.stats = ⟨heap.stats.live - dead.card, heap.stats.allocations,
      heap.stats.deallocations + dead.card, heap.stats.acquires,
      heap.stats.releases + given.card⟩ := by
  have hlive := hs.live
  have hallocations := hs.allocations
  have hdeallocations := hs.deallocations
  have hacquires := hs.acquires
  have hreleases := hs.releases
  generalize next.stats = stats at *
  obtain ⟨live, allocations, deallocations, acquires, releases⟩ := stats
  simp only [Stats.mk.injEq]
  exact ⟨Nat.eq_sub_of_add_eq hlive, hallocations, hdeallocations, hacquires, hreleases⟩

/-- A run that gives everything back is known by the least closed set. -/
theorem Drains.survives (ho : heap.InOrder) (d : Drains (us, heap) (0, next)) :
    ∃ dead, heap.ClosedUnder us dead ∧ (∀ D, heap.ClosedUnder us D → dead ⊆ D) ∧
      heap.Survives dead (us + heap.unitsAmong dead) next := by
  obtain ⟨dead, given, hdr⟩ := Draining.of_drains d (Draining.start ho us)
  have hbalance := hdr.balance
  rw [add_zero] at hbalance
  exact ⟨dead, hdr.closed, hdr.least, hbalance ▸ hdr.toSurvives⟩

end Heap

variable {U : Type} {w : World U} {E : Multiset Handle} {us : List Handle} {n : Nat}

/-- The objects that die depend on the heap and on the units given back, not on their order, and
neither do the entries that are left nor the accounts. -/
theorem releaseAll_order (observe : Log.Event → U → U) (user : Env U → Hooks U)
    (hx : Exact .blank (↑us + E) w) (drops : ∀ h p, w.heap.payload? h = some p → p.Drops)
    (levels : w.heap.stats.live ≤ n) :
    ∃ dead, w.heap.ClosedUnder ↑us dead ∧ (∀ D, w.heap.ClosedUnder ↑us D → dead ⊆ D) ∧
      ∀ us', us'.Perm us → ∃ w', releaseAll us' (.tie observe user n) w = .done () w' ∧
        (∀ h, w.heap.isAlive h = true → (w'.heap.isAlive h = false ↔ h ∈ dead)) ∧
        (∀ h, w'.heap.entryAt? h = if h ∈ dead then none else (w.heap.entryAt? h).map fun e =>
          ⟨e.refcount - (us + w.heap.unitsAmong dead : Multiset Handle).count h, e.payload⟩) ∧
        w'.heap.stats = ⟨w.heap.stats.live - dead.card, w.heap.stats.allocations,
          w.heap.stats.deallocations + dead.card, w.heap.stats.acquires,
          w.heap.stats.releases + (us.length + (w.heap.unitsAmong dead).card)⟩ ∧
        Exact .blank E w' := by
  have hsilent : ∀ h ∈ us, w.heap.Silent h := fun _ _ k p _ found => drops k p found
  have hrun : ∀ us', us'.Perm us → ∃ w', releaseAll us' (.tie observe user n) w = .done () w' ∧
      Heap.Drains (↑us, w.heap) (0, w'.heap) := fun us' hperm => by
    have hsame : (us' : Multiset Handle) = us := Multiset.coe_eq_coe.2 hperm
    obtain ⟨w', hrun, -, hdrains⟩ := releaseAll_drains (tie_deep observe user n)
      (hsame ▸ hx : Exact .blank (↑us' + E) w) (fun h hh => hsilent h (hperm.mem_iff.1 hh)) levels
    exact ⟨w', hrun, hsame ▸ hdrains⟩
  obtain ⟨w₀, -, hdrains₀⟩ := hrun us (.refl us)
  obtain ⟨dead, hclosed, hleast, -⟩ := hdrains₀.survives hx.inOrder
  refine ⟨dead, hclosed, hleast, fun us' hperm => ?_⟩
  obtain ⟨w', hdone, hdrains⟩ := hrun us' hperm
  obtain ⟨dead', hclosed', hleast', hsurvives⟩ := hdrains.survives hx.inOrder
  obtain rfl : dead' = dead := (hleast' dead hclosed).antisymm (hleast dead' hclosed')
  refine ⟨w', hdone, fun h alive => ?_, hsurvives.entryAt?, ?_, ?_⟩
  · exact hsurvives.isAlive alive
  · rw [hsurvives.stats, Multiset.card_add, Multiset.coe_card]
  · have hx' := hdrains.exact hx
    rwa [zero_add] at hx'

def bare (heap : Heap) : World Unit := { heap, pending := none, settings := {}, client := () }

def sharedItem : Heap :=
  let heap := (Heap.empty.insert (.int 7)).2
  (heap.increment? ⟨0, 0⟩).elim heap Prod.snd

def sharing : Heap := ((sharedItem.insert (.list [⟨0, 0⟩])).2.insert (.list [⟨0, 0⟩])).2

theorem sharing_exact : Exact .blank (↑[(⟨1, 0⟩ : Handle), ⟨2, 0⟩] + 0) (bare sharing) := by
  have hempty : Exact .blank 0 (bare .empty) := ⟨Heap.empty_inOrder, fun _ => rfl, trivial⟩
  have hone : Exact .blank ({⟨0, 0⟩} + 0) (bare (Heap.empty.insert (.int 7)).2) :=
    hempty.insert_leaf (.int 7) rfl
  have htwice : Exact .blank ({⟨0, 0⟩} + ({⟨0, 0⟩} + 0)) (bare sharedItem) :=
    Move.exact (.increment (h := ⟨0, 0⟩) rfl) hone
  have hfirst : Exact .blank ({⟨1, 0⟩} + ({⟨0, 0⟩} + 0))
      (bare (sharedItem.insert (.list [⟨0, 0⟩])).2) :=
    Move.exact (.insert ({⟨0, 0⟩} + 0) (bare sharedItem) (.list [⟨0, 0⟩])) htwice
  have hsecond : Exact .blank ({⟨2, 0⟩} + ({⟨1, 0⟩} + 0)) (bare sharing) :=
    Move.exact (.insert ({⟨1, 0⟩} + 0) (bare (sharedItem.insert (.list [⟨0, 0⟩])).2) (.list [⟨0, 0⟩]))
      (Eq.mp (congrArg (fun H => Exact .blank H _) (by decide)) hfirst)
  exact Eq.mp (congrArg (fun H => Exact .blank H (bare sharing)) (by decide)) hsecond

theorem sharing_drops (h : Handle) (p : Payload) (found : sharing.payload? h = some p) :
    p.Drops := by
  obtain ⟨e, he, rfl⟩ := (Heap.payload?_eq_some_iff _ _ _).1 found
  have hslot := Array.mem_toList_iff.2
    (Array.mem_of_getElem? ((Heap.entryAt?_eq_some_iff _ _ _).1 he))
  have hslots : sharing.slots.toList = [⟨0, some ⟨2, .int 7⟩⟩, ⟨0, some ⟨1, .list [⟨0, 0⟩]⟩⟩,
    ⟨0, some ⟨1, .list [⟨0, 0⟩]⟩⟩] := rfl
  intro d s hnative
  simp only [hslots, List.mem_cons, HeapSlot.mk.injEq, Option.some.injEq, List.not_mem_nil,
    or_false] at hslot
  obtain ⟨-, rfl⟩ | ⟨-, rfl⟩ | ⟨-, rfl⟩ := hslot <;> cases hnative

/-- Whichever list goes first, the integer goes with the second. -/
theorem releaseAll_order_sharing : ∃ w₁ w₂,
    releaseAll [⟨1, 0⟩, ⟨2, 0⟩] (.tie (fun _ u => u) (fun _ => .exhausted) 3) (bare sharing) =
      .done () w₁ ∧
    releaseAll [⟨2, 0⟩, ⟨1, 0⟩] (.tie (fun _ u => u) (fun _ => .exhausted) 3) (bare sharing) =
      .done () w₂ ∧
    w₁.heap.stats = w₂.heap.stats ∧ (∀ h, w₁.heap.entryAt? h = w₂.heap.entryAt? h) ∧
    w₁.heap.isAlive ⟨0, 0⟩ = false := by
  obtain ⟨dead, hclosed, -, horder⟩ := releaseAll_order (n := 3) (fun _ u => u)
    (fun _ => .exhausted) sharing_exact sharing_drops (by decide)
  obtain ⟨w₁, hrun₁, halive, hentry₁, hstats₁, -⟩ := horder _ (.refl _)
  obtain ⟨w₂, hrun₂, -, hentry₂, hstats₂, -⟩ := horder [⟨2, 0⟩, ⟨1, 0⟩] (.swap _ _ _)
  refine ⟨w₁, w₂, hrun₁, hrun₂, hstats₁.trans hstats₂.symm,
    fun h => (hentry₁ h).trans (hentry₂ h).symm, (halive _ rfl).2 ?_⟩
  have hlists : {⟨1, 0⟩, ⟨2, 0⟩} ⊆ dead := by
    intro h hh
    have halive : sharing.isAlive h = true ∧ sharing.refcount h ≤ [⟨1, 0⟩, ⟨2, 0⟩].count h := by
      simp only [Finset.mem_insert, Finset.mem_singleton] at hh
      rcases hh with rfl | rfl <;> decide
    refine hclosed h halive.1 (halive.2.trans ?_)
    rw [Multiset.count_add, Multiset.coe_count]
    exact Nat.le_add_right _ _
  refine hclosed _ rfl ?_
  have hboth := Heap.unitsAmong_mono sharing hlists ⟨0, 0⟩
  rw [Multiset.count_add]
  exact hboth.trans (Nat.le_add_left _ _)

end Causeway
