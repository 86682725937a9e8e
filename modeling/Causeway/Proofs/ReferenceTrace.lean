import Causeway.Proofs.Ageing
/-!
# The reference trace

With references traced the log tells of each change of a count, as soon as it is made: of units that
are taken and given back, of objects that come and go. Here the log is held against the heap.

A handle may come to name another object, so objects are told apart by their slots and by how often
these were vacated before. That is counted beside the heap, and kept with each event for the object
it tells of. Whatever happens while references are traced happens in small steps from scene to scene,
over which each object lives as the events about it say.
-/
set_option autoImplicit false

namespace Causeway

open Log (Event)

namespace Log.Event

def isAllocation : Event → Bool
  | allocated _ _ => true
  | _ => false

def isAcquisition : Event → Bool
  | acquired _ _ => true
  | _ => false

def isRelease : Event → Bool
  | released _ _ => true
  | _ => false

def isDeallocation : Event → Bool
  | deallocated _ _ => true
  | _ => false

def recount (count : Nat) : Event → Nat
  | allocated _ _ => 1
  | acquired _ _ => count + 1
  | released _ _ | deallocated _ _ => count - 1
  | _ => count

/-- What an event has to say if the events before it come to this count. No release says zero: the
last unit goes with its object. -/
def Follows (count : Nat) : Event → Prop
  | allocated _ _ => count = 0
  | acquired h n => 0 < count ∧ n = recount count (acquired h n)
  | released h n => 0 < n ∧ n = recount count (released h n)
  | deallocated _ _ => count = 1
  | _ => True

end Log.Event

inductive Life where
  | due
  | counted (n : Nat)
  | gone
deriving DecidableEq

namespace Life

def count : Life → Nat
  | counted n => n
  | due | gone => 0

def ofCount : Nat → Life
  | 0 => due
  | n + 1 => counted (n + 1)

def next? : Life → Event → Option Life
  | due, .allocated _ _ => some (counted 1)
  | counted n, .acquired _ m => if 0 < n ∧ m = n + 1 then some (counted m) else none
  | counted n, .released _ m => if 0 < m ∧ m + 1 = n then some (counted m) else none
  | counted n, .deallocated _ _ => if n = 1 then some gone else none
  | _, _ => none

def replay? (l : Life) (events : List Event) : Option Life := events.foldlM next? l

variable {l l' l'' : Life} {e : Event} {events events' before after : List Event}

theorem replay?_nil : replay? l [] = some l' ↔ l = l' := by
  simp [replay?]

theorem replay?_cons :
    replay? l (e :: events) = some l' ↔ ∃ l₁, l.next? e = some l₁ ∧ replay? l₁ events = some l' := by
  simp [replay?, List.foldlM_cons, Option.bind_eq_some_iff]

theorem replay?_append : replay? l (events ++ events') = some l' ↔
    ∃ l₁, replay? l events = some l₁ ∧ replay? l₁ events' = some l' := by
  simp [replay?, List.foldlM_append, Option.bind_eq_some_iff]

theorem next?_follows (h : l.next? e = some l') :
    e.Follows l.count ∧ l'.count = e.recount l.count := by
  cases l <;> cases e <;> simp only [next?, Option.ite_none_right_eq_some, reduceCtorEq] at h
  · cases h
    exact ⟨rfl, rfl⟩
  · obtain ⟨⟨hpos, rfl⟩, ⟨⟩⟩ := h
    exact ⟨⟨hpos, rfl⟩, rfl⟩
  · obtain ⟨⟨hpos, rfl⟩, ⟨⟩⟩ := h
    exact ⟨⟨hpos, rfl⟩, rfl⟩
  · obtain ⟨rfl, ⟨⟩⟩ := h
    exact ⟨rfl, rfl⟩

/-- An allocation comes when an object is due, and at no other time. -/
theorem next?_isAllocation (h : l.next? e = some l') : e.isAllocation = true ↔ l = due := by
  cases l <;> cases e <;> simp_all [next?, Event.isAllocation]

theorem next?_isDeallocation (h : l.next? e = some l') : e.isDeallocation = true ↔ l' = gone := by
  cases l <;> cases e <;> simp only [next?, Option.ite_none_right_eq_some, reduceCtorEq] at h
  · cases h
    simp [Event.isDeallocation]
  · obtain ⟨-, ⟨⟩⟩ := h
    simp [Event.isDeallocation]
  · obtain ⟨-, ⟨⟩⟩ := h
    simp [Event.isDeallocation]
  · obtain ⟨-, ⟨⟩⟩ := h
    simp [Event.isDeallocation]

theorem next?_ne_due (h : l.next? e = some l') : l' ≠ due := by
  cases l <;> cases e <;> simp only [next?, Option.ite_none_right_eq_some, reduceCtorEq] at h
  · cases h
    exact nofun
  all_goals
    obtain ⟨-, ⟨⟩⟩ := h
    exact nofun

theorem replay?_gone (h : replay? gone events = some l') : events = [] ∧ l' = gone := by
  cases events with
  | nil => exact ⟨rfl, (replay?_nil.1 h).symm⟩
  | cons e events =>
    obtain ⟨l₁, hnext, -⟩ := replay?_cons.1 h
    cases e <;> cases hnext

theorem replay?_ne_due (h : replay? l events = some l') (hl : l ≠ due) :
    l' ≠ due ∧ ∀ e ∈ events, e.isAllocation = false := by
  induction events generalizing l with
  | nil => exact ⟨replay?_nil.1 h ▸ hl, nofun⟩
  | cons e events ih =>
    obtain ⟨l₁, hnext, hrest⟩ := replay?_cons.1 h
    obtain ⟨hl', hevents⟩ := ih hrest (next?_ne_due hnext)
    refine ⟨hl', List.forall_mem_cons.2 ⟨?_, hevents⟩⟩
    by_contra he
    exact hl ((next?_isAllocation hnext).1 (by simpa using he))

theorem replay?_due (h : replay? l events = some due) : l = due ∧ events = [] := by
  cases events with
  | nil => exact ⟨replay?_nil.1 h, rfl⟩
  | cons e events =>
    obtain ⟨l₁, hnext, hrest⟩ := replay?_cons.1 h
    exact absurd rfl (replay?_ne_due hrest (next?_ne_due hnext)).1

theorem replay?_count (h : replay? l events = some l') :
    l'.count = events.foldl Event.recount l.count := by
  induction events generalizing l with
  | nil => rw [replay?_nil.1 h, List.foldl_nil]
  | cons e events ih =>
    obtain ⟨l₁, hnext, hrest⟩ := replay?_cons.1 h
    rw [ih hrest, List.foldl_cons, (next?_follows hnext).2]

/-- A life comes to its end in the last event or not at all. -/
theorem replay?_isDeallocation (h : replay? l (before ++ e :: after) = some l') :
    e.isDeallocation = true ↔ l' = gone ∧ after = [] := by
  obtain ⟨l₁, -, hrest⟩ := replay?_append.1 h
  obtain ⟨l₂, hnext, hafter⟩ := replay?_cons.1 hrest
  rw [next?_isDeallocation hnext]
  constructor
  · rintro rfl
    obtain ⟨hnil, rfl⟩ := replay?_gone hafter
    exact ⟨rfl, hnil⟩
  · rintro ⟨rfl, rfl⟩
    exact replay?_nil.1 hafter

end Life

/-- The object a slot holds after it was vacated some number of times. -/
structure Tenant where
  slot : Nat
  earlier : Nat
deriving DecidableEq

def Tenant.handle (o : Tenant) : Handle := ⟨o.slot, UInt32.ofNat o.earlier⟩

/-- What there is to see of a run at one moment, and beside it how often each slot was vacated and
which object each event tells of. -/
structure Scene where
  heap : Heap
  vacated : Nat → Nat
  log : List (Option Tenant × Event)

def told (events : List (Option Tenant × Event)) (o : Tenant) : List Event :=
  events.filterMap fun x => if x.1 = some o then some x.2 else none

theorem told_append (events events' : List (Option Tenant × Event)) (o : Tenant) :
    told (events ++ events') o = told events o ++ told events' o :=
  List.filterMap_append

theorem mem_told {events : List (Option Tenant × Event)} {o : Tenant} {e : Event} :
    e ∈ told events o ↔ (some o, e) ∈ events := by
  simp [told, List.mem_filterMap]

namespace Scene

def tenant (s : Scene) (i : Nat) : Tenant := ⟨i, s.vacated i⟩

def life (s : Scene) (o : Tenant) : Life :=
  if s.vacated o.slot < o.earlier then .due
  else if o.earlier < s.vacated o.slot then .gone
  else .ofCount (s.heap.refcount o.handle)

def vacate (s : Scene) (i : Nat) : Scene :=
  { s with vacated := Function.update s.vacated i (s.vacated i + 1) }

def report (s : Scene) (o : Tenant) (e : Event) : Scene := { s with log := s.log ++ [(some o, e)] }

/-- The small steps of a run with references traced. -/
inductive Step (s : Scene) : Scene → Prop where
  | insert (p : Payload) : Step s
      (({ s with heap := (s.heap.insert p).2 } : Scene).report (s.tenant (s.heap.insert p).1.index)
        (.allocated (s.heap.insert p).1 p.typeName))
  | increment {h : Handle} {n : Nat} {heap : Heap} (done : s.heap.increment? h = some (n, heap)) :
      Step s (({ s with heap } : Scene).report (s.tenant h.index) (.acquired h n))
  | alive {h : Handle} {n : Nat} {heap : Heap} (done : s.heap.decrement? h = some (.alive n, heap)) :
      Step s (({ s with heap } : Scene).report (s.tenant h.index) (.released h n))
  | dead {h : Handle} {p : Payload} {heap : Heap}
      (done : s.heap.decrement? h = some (.dead p, heap)) :
      Step s ((({ s with heap } : Scene).vacate h.index).report (s.tenant h.index)
        (.deallocated h p.typeName))
  | setPayload (h : Handle) (p : Payload) : Step s { s with heap := s.heap.setPayload h p }
  | aside (e : Event) (he : e.object? = none) : Step s { s with log := s.log ++ [(none, e)] }

abbrev Run : Scene → Scene → Prop := Relation.ReflTransGen Step

/-- The generations of the slots say how often they were vacated, as far as they can. -/
structure Tells (s : Scene) : Prop where
  inOrder : s.heap.InOrder
  generation : ∀ i, s.heap.generation i = UInt32.ofNat (s.vacated i)

variable {s t u : Scene} {o : Tenant} {h : Handle} {e : Event}
  {events events' : List (Option Tenant × Event)}

theorem Tells.report (ht : s.Tells) (o : Tenant) (e : Event) : (s.report o e).Tells :=
  ⟨ht.inOrder, ht.generation⟩

theorem Tells.step (ht : s.Tells) (step : Step s t) : t.Tells := by
  cases step with
  | insert p =>
    refine .report ⟨Heap.insert_inOrder ht.inOrder p, fun i => ?_⟩ _ _
    exact (Heap.insert_generation ht.inOrder p i).trans (ht.generation i)
  | increment done =>
    refine .report ⟨Heap.increment?_inOrder done ht.inOrder, fun i => ?_⟩ _ _
    exact (Heap.increment?_generation done i).trans (ht.generation i)
  | alive done =>
    refine .report ⟨Heap.decrement?_inOrder done ht.inOrder, fun i => ?_⟩ _ _
    exact (Heap.decrement?_alive_generation done i).trans (ht.generation i)
  | @dead h p heap done =>
    refine .report ⟨Heap.decrement?_inOrder done ht.inOrder, fun i => ?_⟩ _ _
    change heap.generation i = _
    rw [Heap.decrement?_dead_generation done, ht.generation]
    by_cases hi : i = h.index
    · simp [hi, vacate, UInt32.ofNat_add]
    · simp [hi, vacate]
  | setPayload h p =>
    refine ⟨Heap.setPayload_inOrder ht.inOrder h p, fun i => ?_⟩
    exact (Heap.setPayload_generation _ h p i).trans (ht.generation i)
  | aside => exact ⟨ht.inOrder, ht.generation⟩

theorem Tells.run (ht : s.Tells) (run : Run s t) : t.Tells := by
  induction run with
  | refl => exact ht
  | tail _ step ih => exact ih.step step

theorem tenant_handle (ht : s.Tells) {en : HeapEntry} (he : s.heap.entryAt? h = some en) :
    (s.tenant h.index).handle = h := by
  have hgeneration := (Heap.generation_of_entryAt? he).symm.trans (ht.generation h.index)
  rw [tenant, Tenant.handle, ← hgeneration]

theorem life_tenant (s : Scene) (i : Nat) :
    s.life (s.tenant i) = .ofCount (s.heap.refcount (s.tenant i).handle) := by
  simp [life, tenant]

theorem ofCount_pos {n : Nat} (hn : 0 < n) : Life.ofCount n = .counted n := by
  cases n with
  | zero => cases hn
  | succ n => rfl

theorem life_counted (ht : s.Tells) {en : HeapEntry} (he : s.heap.entryAt? h = some en) :
    s.life (s.tenant h.index) = .counted en.refcount := by
  rw [life_tenant, tenant_handle ht he, Heap.refcount_eq, he]
  exact ofCount_pos (ht.inOrder.positive h en he)

/-- What happens to the tenant of a slot does not happen to any other object. -/
theorem life_of_ne (hvacated : t.vacated = s.vacated)
    (hcount : ∀ k, k ≠ h → t.heap.refcount k = s.heap.refcount k) (hne : o ≠ s.tenant h.index) :
    t.life o = s.life o := by
  unfold life
  rw [hvacated]
  by_cases hcurrent : o.earlier = s.vacated o.slot
  · have hhandle : o.handle ≠ h := by
      rintro rfl
      exact hne (by rw [tenant, Tenant.handle, ← hcurrent])
    rw [hcount _ hhandle]
  · by_cases hlt : s.vacated o.slot < o.earlier
    · rw [if_pos hlt, if_pos hlt]
    · have hgt : o.earlier < s.vacated o.slot := by omega
      rw [if_neg hlt, if_neg hlt, if_pos hgt, if_pos hgt]

/-- Objects live as the events say, each of which is about the object it is kept with. -/
structure Replays (s : Scene) (events : List (Option Tenant × Event)) (t : Scene) : Prop where
  log : t.log = s.log ++ events
  object : ∀ o e, (o, e) ∈ events → e.object? = o.map Tenant.handle
  lives : ∀ o, (s.life o).replay? (told events o) = some (t.life o)
  within : ∀ o e, (some o, e) ∈ events →
    s.vacated o.slot ≤ o.earlier ∧ o.earlier ≤ t.vacated o.slot
  vacated : ∀ i, s.vacated i ≤ t.vacated i ∧
    t.vacated i + s.heap.stats.deallocations ≤ s.vacated i + t.heap.stats.deallocations
  allocations : t.heap.stats.allocations =
    s.heap.stats.allocations + events.countP (·.2.isAllocation)
  deallocations : t.heap.stats.deallocations =
    s.heap.stats.deallocations + events.countP (·.2.isDeallocation)
  acquires : t.heap.stats.acquires = s.heap.stats.acquires +
    (events.countP (·.2.isAllocation) + events.countP (·.2.isAcquisition))
  releases : t.heap.stats.releases = s.heap.stats.releases +
    (events.countP (·.2.isRelease) + events.countP (·.2.isDeallocation))

namespace Replays

theorem refl (s : Scene) : s.Replays [] s where
  log := (List.append_nil _).symm
  object _ _ h := absurd h List.not_mem_nil
  lives _ := rfl
  within _ _ h := absurd h List.not_mem_nil
  vacated _ := ⟨le_rfl, le_rfl⟩
  allocations := rfl
  deallocations := rfl
  acquires := rfl
  releases := rfl

theorem trans (r : s.Replays events t) (r' : t.Replays events' u) :
    s.Replays (events ++ events') u where
  log := by rw [r'.log, r.log, List.append_assoc]
  object o e h := (List.mem_append.1 h).elim (r.object o e) (r'.object o e)
  lives o := by
    rw [told_append]
    exact Life.replay?_append.2 ⟨_, r.lives o, r'.lives o⟩
  within o e h := by
    have hfirst := (r.vacated o.slot).1
    have hsecond := (r'.vacated o.slot).1
    obtain h | h := List.mem_append.1 h
    · have hwithin := r.within o e h
      omega
    · have hwithin := r'.within o e h
      omega
  vacated i := by
    have hfirst := r.vacated i
    have hsecond := r'.vacated i
    omega
  allocations := by rw [r'.allocations, r.allocations, List.countP_append, Nat.add_assoc]
  deallocations := by rw [r'.deallocations, r.deallocations, List.countP_append, Nat.add_assoc]
  acquires := by
    rw [r'.acquires, r.acquires, List.countP_append, List.countP_append]
    omega
  releases := by
    rw [r'.releases, r.releases, List.countP_append, List.countP_append]
    omega

/-- One event about the tenant of a slot, which is all that something happens to. -/
theorem of_event {i : Nat} (log : t.log = s.log)
    (object : e.object? = some (s.tenant i).handle)
    (own : (s.life (s.tenant i)).next? e = some (t.life (s.tenant i)))
    (others : ∀ o, o ≠ s.tenant i → t.life o = s.life o)
    (vacated : ∀ j, s.vacated j ≤ t.vacated j ∧
      t.vacated j + s.heap.stats.deallocations ≤ s.vacated j + t.heap.stats.deallocations)
    (allocations : t.heap.stats.allocations =
      s.heap.stats.allocations + [e].countP Event.isAllocation)
    (deallocations : t.heap.stats.deallocations =
      s.heap.stats.deallocations + [e].countP Event.isDeallocation)
    (acquires : t.heap.stats.acquires = s.heap.stats.acquires +
      ([e].countP Event.isAllocation + [e].countP Event.isAcquisition))
    (releases : t.heap.stats.releases = s.heap.stats.releases +
      ([e].countP Event.isRelease + [e].countP Event.isDeallocation)) :
    ∃ events, s.Replays events (t.report (s.tenant i) e) := by
  refine ⟨[(some (s.tenant i), e)], congrArg (· ++ _) log, fun o e' h => ?_, fun o => ?_,
    fun o e' h => ?_, vacated, allocations, deallocations, acquires, releases⟩
  · cases List.mem_singleton.1 h
    exact object
  · change (s.life o).replay? _ = some (t.life o)
    by_cases ho : o = s.tenant i
    · have htold : told [(some (s.tenant i), e)] o = [e] := by simp [told, ho]
      rw [htold, ho]
      exact Life.replay?_cons.2 ⟨_, own, rfl⟩
    · have htold : told [(some (s.tenant i), e)] o = [] := by simp [told, Ne.symm ho]
      rw [htold, others o ho]
      rfl
  · cases List.mem_singleton.1 h
    exact ⟨le_rfl, (vacated i).1⟩

theorem of_still {added : List (Option Tenant × Event)} (log : t.log = s.log ++ added)
    (aside : ∀ x ∈ added, x.1 = none ∧ x.2.object? = none)
    (vacated : t.vacated = s.vacated) (stats : t.heap.stats = s.heap.stats)
    (counts : ∀ k, t.heap.refcount k = s.heap.refcount k) : s.Replays added t := by
  have hnone : ∀ o, told added o = [] := fun o => by
    refine List.eq_nil_iff_forall_not_mem.2 fun e he => ?_
    cases (aside _ (mem_told.1 he)).1
  have hcount : ∀ p : Event → Bool, (∀ e : Event, e.object? = none → p e = false) →
      added.countP (p ·.2) = 0 := fun p hp =>
    List.countP_eq_zero.2 fun x hx => by simp [hp _ (aside x hx).2]
  refine ⟨log, fun o e h => ?_, fun o => ?_, fun o e h => ?_, fun i => ?_, ?_, ?_, ?_, ?_⟩
  · obtain ⟨rfl, he⟩ := aside _ h
    exact he
  · have hlife : t.life o = s.life o := by rw [life, life, vacated, counts]
    rw [hnone, hlife]
    rfl
  · cases (aside _ h).1
  · rw [vacated, stats]
    exact ⟨le_rfl, le_rfl⟩
  all_goals
    rw [stats]
    repeat rw [hcount _ fun e he => by cases e <;> first | rfl | cases he]
    rfl

end Replays

section

variable {heap : Heap} {n : Nat} {p : Payload}

theorem Tells.insert_replays (ht : s.Tells) (p : Payload) :
    ∃ events, s.Replays events (({ s with heap := (s.heap.insert p).2 } : Scene).report
      (s.tenant (s.heap.insert p).1.index) (.allocated (s.heap.insert p).1 p.typeName)) := by
  have hstats : (s.heap.insert p).2.stats = s.heap.stats.allocate := by
    obtain hp | ⟨_, _, _, _, _, hp⟩ := Heap.insert_cases ht.inOrder p
    · rw [hp]
      rfl
    · rw [hp]
  have hcount := Heap.insert_refcount ht.inOrder p
  have hhandle : (s.tenant (s.heap.insert p).1.index).handle = (s.heap.insert p).1 := by
    rw [tenant, Tenant.handle, ← ht.generation, Heap.generation_insert_fst ht.inOrder]
  have hnew := Heap.refcount_of_gone (Heap.insert_fresh ht.inOrder p)
  refine Replays.of_event rfl (by rw [hhandle]; rfl) ?_
    (fun o ho => life_of_ne rfl (fun k hk => ?_) ho) (fun j => ?_) ?_ ?_ ?_ ?_
  · have hafter := life_tenant { s with heap := (s.heap.insert p).2 } (s.heap.insert p).1.index
    change life _ (s.tenant _) = .ofCount (Heap.refcount _ (s.tenant _).handle) at hafter
    rw [hafter, life_tenant, hhandle, hcount, hnew, Multiset.count_singleton_self]
    rfl
  · change (s.heap.insert p).2.refcount k = _
    rw [hcount, Multiset.count_singleton, if_neg hk, Nat.add_zero]
  · rw [hstats]
    exact ⟨le_rfl, le_rfl⟩
  all_goals
    rw [hstats]
    rfl

theorem Tells.increment_replays (ht : s.Tells)
    (done : s.heap.increment? h = some (n, heap)) :
    ∃ events, s.Replays events
      (({ s with heap } : Scene).report (s.tenant h.index) (.acquired h n)) := by
  obtain ⟨en, he, rfl, hnext⟩ := Heap.increment?_eq_some done
  have hpos := ht.inOrder.positive h en he
  have hcount := Heap.increment?_refcount done
  have hstats : heap.stats = { s.heap.stats with acquires := s.heap.stats.acquires + 1 } := by
    rw [hnext]
  have hhandle := tenant_handle ht he
  refine Replays.of_event rfl (by rw [hhandle]; rfl) ?_
    (fun o ho => life_of_ne rfl (fun k hk => ?_) ho) (fun j => ?_) ?_ ?_ ?_ ?_
  · have hafter := life_tenant { s with heap } h.index
    change life _ (s.tenant _) = .ofCount (Heap.refcount heap (s.tenant _).handle) at hafter
    rw [hafter, life_counted ht he, hhandle, hcount, Heap.refcount_eq, he,
      Multiset.count_singleton_self]
    exact if_pos ⟨hpos, rfl⟩
  · change heap.refcount k = _
    rw [hcount, Multiset.count_singleton, if_neg hk, Nat.add_zero]
  · rw [hstats]
    exact ⟨le_rfl, le_rfl⟩
  all_goals
    rw [hstats]
    rfl

theorem Tells.alive_replays (ht : s.Tells)
    (done : s.heap.decrement? h = some (.alive n, heap)) :
    ∃ events, s.Replays events
      (({ s with heap } : Scene).report (s.tenant h.index) (.released h n)) := by
  obtain ⟨en, he, ⟨hpos, hn, hnext⟩ | ⟨-, ⟨⟩, -⟩⟩ := Heap.decrement?_eq_some done
  cases hn
  have hcount := Heap.decrement?_refcount ht.inOrder done
  have hstats : heap.stats = { s.heap.stats with releases := s.heap.stats.releases + 1 } := by
    rw [hnext]
  have hhandle := tenant_handle ht he
  refine Replays.of_event rfl (by rw [hhandle]; rfl) ?_
    (fun o ho => life_of_ne rfl (fun k hk => ?_) ho) (fun j => ?_) ?_ ?_ ?_ ?_
  · have hafter := life_tenant { s with heap } h.index
    change life _ (s.tenant _) = .ofCount (Heap.refcount heap (s.tenant _).handle) at hafter
    have hless : heap.refcount h = en.refcount - 1 := by
      have hsum := hcount h
      rw [Multiset.count_singleton_self, Heap.refcount_eq s.heap, he] at hsum
      exact Nat.eq_sub_of_add_eq hsum
    rw [hafter, life_counted ht he, hhandle, hless, ofCount_pos hpos]
    exact if_pos ⟨hpos, by omega⟩
  · have hsum := hcount k
    rw [Multiset.count_singleton, if_neg hk, Nat.add_zero] at hsum
    exact hsum
  · rw [hstats]
    exact ⟨le_rfl, le_rfl⟩
  all_goals
    rw [hstats]
    rfl

/-- The last unit vacates the slot; whoever is to be in it next is still due. -/
theorem Tells.dead_replays (ht : s.Tells)
    (done : s.heap.decrement? h = some (.dead p, heap)) :
    ∃ events, s.Replays events ((({ s with heap } : Scene).vacate h.index).report
      (s.tenant h.index) (.deallocated h p.typeName)) := by
  obtain ⟨en, he, ⟨-, ⟨⟩, -⟩ | ⟨hle, -, hnext⟩⟩ := Heap.decrement?_eq_some done
  have hone : en.refcount = 1 := le_antisymm hle (ht.inOrder.positive h en he)
  have hcount := Heap.decrement?_refcount ht.inOrder done
  have hstats : heap.stats = { s.heap.stats with
      releases := s.heap.stats.releases + 1
      deallocations := s.heap.stats.deallocations + 1
      live := s.heap.stats.live - 1 } := by
    rw [hnext]
  have hvacant : ∀ k : Handle, k.index = h.index → heap.refcount k = 0 := fun k hk => by
    have houtline := (Heap.decrement?_dead_outline done).2 k.index
    rw [if_pos hk] at houtline
    by_contra hpos
    have halive := (Heap.isAlive_iff_refcount_pos (Heap.decrement?_inOrder done ht.inOrder) k).2
      (Nat.pos_of_ne_zero hpos)
    rw [Heap.isAlive_iff_outline, houtline] at halive
    simp at halive
  have hhandle := tenant_handle ht he
  refine Replays.of_event rfl (by rw [hhandle]; rfl) ?_ (fun o ho => ?_) (fun j => ?_)
    ?_ ?_ ?_ ?_
  · have hgone : (({ s with heap } : Scene).vacate h.index).life (s.tenant h.index) = .gone := by
      simp [life, vacate, tenant]
    rw [hgone, life_counted ht he, hone]
    rfl
  · by_cases hslot : o.slot = h.index
    · have hother : o.earlier ≠ s.vacated h.index := by
        rintro hsame
        obtain ⟨slot, earlier⟩ := o
        exact ho (by rw [tenant, ← hsame, ← hslot])
      simp only [life, vacate, hslot, Function.update_self, hvacant o.handle hslot]
      by_cases hlt : s.vacated h.index < o.earlier
      · have hnext : ¬ o.earlier < s.vacated h.index + 1 := by omega
        rw [if_pos hlt, if_neg hnext]
        split <;> rfl
      · have hgone : o.earlier < s.vacated h.index := by omega
        rw [if_neg hlt, if_pos hgone, if_neg (by omega), if_pos (by omega)]
    · have hhandle' : o.handle ≠ h := fun hsame => hslot (congrArg Handle.index hsame)
      have hsum := hcount o.handle
      rw [Multiset.count_singleton, if_neg hhandle', Nat.add_zero] at hsum
      simp only [life, vacate, Function.update_of_ne hslot, hsum]
  · by_cases hj : j = h.index
    · simp only [vacate, hstats, hj, Function.update_self]
      omega
    · simp only [vacate, hstats, Function.update_of_ne hj]
      omega
  all_goals
    simp only [vacate, hstats]
    rfl

end

theorem Tells.step_replays (ht : s.Tells) (step : Step s t) : ∃ events, s.Replays events t := by
  cases step with
  | insert p => exact ht.insert_replays p
  | increment done => exact ht.increment_replays done
  | alive done => exact ht.alive_replays done
  | dead done => exact ht.dead_replays done
  | setPayload h p =>
    have hstats : (s.heap.setPayload h p).stats = s.heap.stats := by
      unfold Heap.setPayload
      split <;> rfl
    exact ⟨[], .of_still (List.append_nil _).symm nofun rfl hstats
      (Heap.setPayload_refcount s.heap h p)⟩
  | aside e he =>
    refine ⟨[(none, e)], .of_still rfl (fun x hx => ?_) rfl rfl fun _ => rfl⟩
    cases List.mem_singleton.1 hx
    exact ⟨rfl, he⟩

theorem Tells.replays (ht : s.Tells) (run : Run s t) : ∃ events, s.Replays events t := by
  induction run with
  | refl => exact ⟨[], .refl s⟩
  | tail run step ih =>
    obtain ⟨events, hreplays⟩ := ih
    obtain ⟨events', hreplays'⟩ := (ht.run run).step_replays step
    exact ⟨events ++ events', hreplays.trans hreplays'⟩

structure Account (o : Tenant) (l l' : Life) (told : List Event) : Prop where
  /-- Who was made meanwhile is told to be made, before all else and once. -/
  made : l = .due → l' ≠ .due → ∃ typeName rest, told = .allocated o.handle typeName :: rest ∧
    ∀ e ∈ rest, e.isAllocation = false
  older : l ≠ .due → ∀ e ∈ told, e.isAllocation = false
  due : l' = .due → told = []
  /-- Each event says what the replay of those before it comes to. -/
  follows : ∀ before e after, told = before ++ e :: after →
    e.Follows (before.foldl Event.recount l.count)
  count : l'.count = told.foldl Event.recount l.count
  /-- Who went meanwhile is told to go, and nothing is told of it after that. -/
  gone : l ≠ .gone ∧ l' = .gone ↔ ∃ before typeName,
    told = before ++ [.deallocated o.handle typeName]
  last : ∀ before e after, told = before ++ e :: after → e.isDeallocation = true → after = []

theorem Account.of_replay {l l' : Life} {told : List Event}
    (object : ∀ e ∈ told, e.object? = some o.handle) (replay : l.replay? told = some l') :
    Account o l l' told where
  made hl hl' := by
    subst hl
    cases told with
    | nil => exact absurd (Life.replay?_nil.1 replay).symm hl'
    | cons e rest =>
      obtain ⟨l₁, hnext, hrest⟩ := Life.replay?_cons.1 replay
      cases e with
      | allocated h typeName =>
        cases object _ List.mem_cons_self
        exact ⟨typeName, rest, rfl, (Life.replay?_ne_due hrest (Life.next?_ne_due hnext)).2⟩
      | _ => cases hnext
  older hl := (Life.replay?_ne_due replay hl).2
  due hl' := (Life.replay?_due (hl' ▸ replay)).2
  follows before e after htold := by
    obtain ⟨l₁, hbefore, hrest⟩ := Life.replay?_append.1 (htold ▸ replay)
    obtain ⟨l₂, hnext, -⟩ := Life.replay?_cons.1 hrest
    rw [← Life.replay?_count hbefore]
    exact (Life.next?_follows hnext).1
  count := Life.replay?_count replay
  gone := by
    constructor
    · rintro ⟨hl, rfl⟩
      obtain hnil | ⟨before, e, rfl⟩ := List.eq_nil_or_concat told
      · rw [hnil] at replay
        exact absurd (Life.replay?_nil.1 replay) hl
      · rw [List.concat_eq_append] at replay
        have he := (Life.replay?_isDeallocation replay).2 ⟨rfl, rfl⟩
        have hobject := object e (by simp)
        cases e with
        | deallocated h typeName =>
          cases hobject
          exact ⟨before, typeName, List.concat_eq_append⟩
        | _ => cases he
    · rintro ⟨before, typeName, rfl⟩
      refine ⟨?_, ((Life.replay?_isDeallocation replay).1 rfl).1⟩
      rintro rfl
      exact absurd (Life.replay?_gone replay).1 (by simp)
  last before e after htold he := ((Life.replay?_isDeallocation (htold ▸ replay)).1 he).2

/-- What the log has to say of a stretch of a run: of each object, of each handle, and of the
statistics of the heap. -/
structure Accounts (s : Scene) (events : List (Option Tenant × Event)) (t : Scene) : Prop where
  log : t.log = s.log ++ events
  object : ∀ o e, (o, e) ∈ events → e.object? = o.map Tenant.handle
  each : ∀ o, Account o (s.life o) (t.life o) (told events o)
  /-- A live object is the tenant of its slot, under its handle and with its count. -/
  live : ∀ h, t.heap.isAlive h = true → (t.tenant h.index).handle = h ∧
    t.life (t.tenant h.index) = .counted (t.heap.refcount h)
  /-- As long as fewer objects go than a generation can count, what is told of a handle is told of
  one object. -/
  sole : t.heap.stats.deallocations < s.heap.stats.deallocations + 2 ^ 32 →
    ∀ o, s.vacated o.slot ≤ o.earlier → o.earlier ≤ t.vacated o.slot →
      told events o = (events.map Prod.snd).filter (·.object? = some o.handle)
  allocations : t.heap.stats.allocations =
    s.heap.stats.allocations + events.countP (·.2.isAllocation)
  deallocations : t.heap.stats.deallocations =
    s.heap.stats.deallocations + events.countP (·.2.isDeallocation)
  acquires : t.heap.stats.acquires = s.heap.stats.acquires +
    (events.countP (·.2.isAllocation) + events.countP (·.2.isAcquisition))
  releases : t.heap.stats.releases = s.heap.stats.releases +
    (events.countP (·.2.isRelease) + events.countP (·.2.isDeallocation))

/-- Of two objects with one handle in a stretch that is short enough there is but one. -/
theorem Replays.tenant_eq (r : s.Replays events t) {o o' : Tenant}
    (few : t.heap.stats.deallocations < s.heap.stats.deallocations + 2 ^ 32)
    (hsame : o'.handle = o.handle)
    (ho : s.vacated o.slot ≤ o.earlier ∧ o.earlier ≤ t.vacated o.slot)
    (ho' : s.vacated o'.slot ≤ o'.earlier ∧ o'.earlier ≤ t.vacated o'.slot) : o' = o := by
  obtain ⟨i, v⟩ := o
  obtain ⟨j, v'⟩ := o'
  cases congrArg Handle.index hsame
  have hgeneration := congrArg UInt32.toNat (congrArg Handle.generation hsame)
  simp only [Tenant.handle, UInt32.toNat_ofNat'] at hgeneration ho ho'
  have hvacated := (r.vacated i).2
  have hv : v' = v := by omega
  rw [hv]

theorem Replays.accounts (r : s.Replays events t) (ht : t.Tells) : s.Accounts events t where
  log := r.log
  object := r.object
  each o := .of_replay (fun e he => r.object _ _ (mem_told.1 he)) (r.lives o)
  live h halive := by
    obtain ⟨en, he⟩ := (Heap.isAlive_iff _ _).1 halive
    refine ⟨tenant_handle ht he, ?_⟩
    rw [life_counted ht he, Heap.refcount_eq, he]
    rfl
  sole few o hfrom hto := by
    have hsole : ∀ x ∈ events, x.1 = some o ↔ x.2.object? = some o.handle := by
      rintro ⟨l, e⟩ hx
      rw [r.object l e hx]
      constructor
      · rintro rfl
        rfl
      · intro hsame
        obtain ⟨o', rfl, hhandle⟩ := Option.map_eq_some_iff.1 hsame
        rw [r.tenant_eq few hhandle ⟨hfrom, hto⟩ (r.within o' e hx)]
    have hsplit : ∀ events : List (Option Tenant × Event),
        (∀ x ∈ events, x.1 = some o ↔ x.2.object? = some o.handle) →
        told events o = (events.map Prod.snd).filter (·.object? = some o.handle) := by
      intro events
      induction events with
      | nil => exact fun _ => rfl
      | cons x events ih =>
        intro h
        obtain ⟨hx, hevents⟩ := List.forall_mem_cons.1 h
        have hrest := ih hevents
        by_cases ho : x.1 = some o
        · have hobject := hx.1 ho
          simpa [told, ho, hobject] using hrest
        · have hobject := mt hx.2 ho
          simpa [told, ho, hobject] using hrest
    exact hsplit events hsole
  allocations := r.allocations
  deallocations := r.deallocations
  acquires := r.acquires
  releases := r.releases

theorem Tells.accounts (ht : s.Tells) (run : Run s t) : ∃ events, s.Accounts events t := by
  obtain ⟨events, hreplays⟩ := ht.replays run
  exact ⟨events, hreplays.accounts (ht.run run)⟩

end Scene

end Causeway
