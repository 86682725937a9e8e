import Causeway.Proofs.PendingErrors
import Causeway.Proofs.NativeWalks
/-!
# Probes

Asking an object whether it can be iterated, or how long it is, runs its slots between taking the
pending error away and putting it back. Whatever the slots and the destructors do to the indicator
meanwhile, the error is there again afterwards. Of an object with no user code behind its slots the
probe leaves nothing else either: its iterator dies with the unit the probe had.
-/
set_option autoImplicit false

namespace Causeway

open Act

variable {U α : Type} {env : Env U} {w w' : World U} {h : Handle} {astray : Prop}

def World.hushed (w : World U) : World U := { w with pending := none }

theorem isIterable_run (h : Handle) (env : Env U) (w : World U) :
    isIterable h env w = (do
      let it ← getIter h
      releaseAll it.toList
      Indicator.clear
      Indicator.putBack w.pending
      pure it.isSome) env w.hushed := rfl

/-- Clearing what the probe left makes room for what was there before. -/
theorem restore_run (e : Option Raised) (a : α) (env : Env U) (w : World U) :
    ∃ w', (do Indicator.clear; Indicator.putBack e; pure a : Act U α) env w = .done a w' ∧
      w'.pending = e ∧ w'.heap = w.heap := by
  obtain ⟨w₁, hclear, hnone, hheap⟩ := clear_run env w
  obtain ⟨w₂, hback, hpending, hheap₂⟩ := putBack_run e env hnone
  refine ⟨w₂, ?_, hpending, hheap₂.trans hheap⟩
  simp only [bind_run, hclear, hback, pure_run]

/-- The probe comes back when the slot and the destructor of what it gave do. -/
theorem isIterable_settles
    (hiter : (getIter h env w.hushed).Settles astray fun it w₁ =>
      (releaseAll it.toList env w₁).Settles astray fun _ _ => True) :
    (isIterable h env w).Settles astray fun _ w' => w'.pending = w.pending := by
  rw [isIterable_run]
  refine hiter.bind fun it w₁ _ hrelease => hrelease.bind fun _ w₂ _ _ => ?_
  obtain ⟨w₃, hrun, hpending, _⟩ := restore_run w.pending it.isSome env w₂
  rw [hrun]
  exact hpending

theorem lengthHint_settles
    (hhint : ∀ d s slot, w.heap.payload? h = some (.native d s) → d.lengthHint = some slot →
      (runHintSlot slot h env w.hushed).Settles astray fun _ _ => True) :
    (lengthHint h env w).Settles astray fun _ w' => w'.pending = w.pending := by
  rw [lengthHint, bind_run, Act.heap]
  dsimp only
  cases hp : w.heap.payload? h with
  | none => exact rfl
  | some p =>
    cases p with
    | native d s =>
      dsimp only
      cases hslot : d.lengthHint with
      | none => exact rfl
      | some slot =>
        change ((runHintSlot slot h >>= fun hint => do
          Indicator.clear
          Indicator.putBack w.pending
          pure hint) env w.hushed).Settles astray _
        refine (hhint d s slot hp hslot).bind fun hint w₁ _ _ => ?_
        obtain ⟨w₂, hrun, hpending, _⟩ := restore_run w.pending hint env w₁
        rw [hrun]
        exact hpending
    | _ => exact rfl

theorem isIterable_pending {b : Bool} (run : isIterable h env w = .done b w') :
    w'.pending = w.pending := by
  have hsettles : (isIterable h env w).Settles True fun _ w' => w'.pending = w.pending :=
    isIterable_settles ((Outcome.Settles.any _).mono fun _ _ _ _ => .any _)
  rw [run] at hsettles
  exact hsettles

theorem lengthHint_pending {n : Option Nat} (run : lengthHint h env w = .done n w') :
    w'.pending = w.pending := by
  have hsettles : (lengthHint h env w).Settles True fun _ w' => w'.pending = w.pending :=
    lengthHint_settles fun _ _ _ _ _ => .any _
  rw [run] at hsettles
  exact hsettles

/-- A view is refused after a probe that found nothing to iterate, and nothing is done then. -/
theorem make_refused_run {f : Failure} (run : View.make h env w = .done (.error f) w') :
    isIterable h env w = .done false w' := by
  obtain ⟨b, w₁, hiterable, hrest⟩ := bind_eq_done.1 run
  cases b with
  | false =>
    cases hrest
    exact hiterable
  | true =>
    change (acquire h >>= fun k => pure (Except.ok k)) env w₁ = _ at hrest
    obtain ⟨k, w₂, -, hpure⟩ := bind_eq_done.1 hrest
    cases hpure

/-- A builtin object, a native adapter or a native collection; its state may be away. -/
def Payload.Stock (p : Payload) : Prop := ∀ d s, p = .native d s → d = .adapter ∨ d = .collection

theorem Noted.recast (hn : Noted env w w') (heap : Heap) (pending : Option Raised) :
    Noted env { w with heap, pending } { w' with heap, pending } := by
  induction hn with
  | nothing => exact .nothing
  | event _ e ih => exact ih.event e

theorem Noted.under (hn : Noted env w w') (e : Option Raised) :
    Noted env { w with pending := e } { w' with pending := e } := by
  rw [hn.kept.2]
  exact hn.recast w.heap e

theorem raise_noted (kind : ExceptionKind) (message : String) (env : Env U)
    (clear : w.pending = none) :
    ∃ w', raise kind message env w = .done () w' ∧
      Noted env { w with pending := some ⟨kind, message⟩ } w' :=
  ⟨_, raise_clear_run kind message env clear, .event .nothing _⟩

theorem clear_noted (env : Env U) (w : World U) :
    ∃ w', Indicator.clear env w = .done () w' ∧ Noted env w.hushed w' := by
  cases hpending : w.pending with
  | none =>
    refine ⟨w, clear_none_run hpending, ?_⟩
    rw [World.hushed, ← hpending]
    exact .nothing
  | some e => exact ⟨_, clear_pending_run hpending, .event .nothing _⟩

/-- What the probe did is forgotten but for the events of it. -/
theorem restore_noted (a : α) {e : Option Raised} {w₁ : World U}
    (hn : Noted env { w with pending := e } w₁) :
    ∃ w', (do Indicator.clear; Indicator.putBack w.pending; pure a : Act U α) env w₁ = .done a w' ∧
      Noted env w w' := by
  obtain ⟨w₂, hclear, hn₂⟩ := clear_noted env w₁
  have hquiet : Noted env w.hushed w₂ := (hn.under none).trans hn₂
  have hback : ∃ w₃, Indicator.putBack w.pending env w₂ = .done () w₃ ∧
      Noted env { w₂ with pending := w.pending } w₃ := by
    have hnone : w₂.pending = none := hquiet.kept.1
    cases w.pending with
    | none =>
      refine ⟨w₂, rfl, ?_⟩
      rw [← hnone]
      exact .nothing
    | some e => exact raise_noted e.kind e.message env hnone
  obtain ⟨w₃, hrun, hn₃⟩ := hback
  refine ⟨w₃, ?_, (hquiet.under w.pending).trans hn₃⟩
  simp only [bind_run, hclear, hrun, pure_run]

/-- Without a state to work on there is an error, and nothing else. -/
theorem withState_refused (kind : StateKind) (units : α → List Handle)
    (f : kind.State → Act U (kind.State × α)) {d : Descriptor} {s : Option NativeState}
    (found : w.heap.payload? h = some (.native d s)) (hs : s.bind (·.get? kind) = none)
    (clear : w.pending = none) (env : Env U) :
    ∃ e w', withState h kind units f env w = .done none w' ∧
      Noted env { w with pending := some e } w' := by
  cases s with
  | none =>
    obtain ⟨w', hrun, hn⟩ := raise_noted .runtimeError s!"{d.name} already executing" env clear
    refine ⟨_, w', ?_, hn⟩
    simp only [withState, bind_run, Act.heap, found, hrun, pure_run]
  | some s =>
    let away := { w with heap := w.heap.setPayload h (.native d none) }
    let message := s!"descriptor '{d.name}' does not hold {kind.path}"
    obtain ⟨w₁, hrun, hn⟩ := raise_noted (w := away) .typeError message env clear
    have waits : w₁.heap.payload? h = some (.native d none) := by
      rw [hn.kept.2]
      exact (Heap.setPayload_payload? found _ h).trans (if_pos rfl)
    have hs' : s.get? kind = none := hs
    refine ⟨⟨.typeError, message⟩,
      { w₁ with heap := w₁.heap.setPayload h (.native d (some s)) }, ?_, ?_⟩
    · have hraise : holding s.units (raiseType message) env
          { w with heap := w.heap.setPayload h (.native d none) } = .done () w₁ := onFault_done hrun
      simp only [withState, bind_run, Act.heap, found, Act.setPayload, updateHeap, hs', hraise,
        putStateBack_waiting s waits, message]
      rfl
    · rw [hn.kept.1, hn.kept.2, show away.heap.setPayload h (.native d (some s)) = w.heap from
        Heap.setPayload_back found _]
      exact hn.recast w.heap _

/-- The slot of an adapter looks at the state and leaves it. -/
theorem remaining_noted {s : Option NativeState}
    (found : w.heap.payload? h = some (.native .adapter s)) (clear : w.pending = none)
    (env : Env U) :
    ∃ a e w', runHintSlot .remaining h env w = .done a w' ∧
      Noted env { w with pending := e } w' := by
  cases hs : s.bind (·.get? .adapter) with
  | some a =>
    obtain ⟨state, rfl, hstate⟩ := Option.bind_eq_some_iff.1 hs
    obtain rfl := NativeState.of_get? hstate
    refine ⟨some a.hint, none, w, ?_, ?_⟩
    · have waits : (w.lending h).heap.payload? h = some (.native .adapter none) :=
        (Heap.setPayload_payload? found _ h).trans (if_pos rfl)
      change withState h .adapter (fun _ => [])
        (fun (a : Adapter) => (pure (a, a.hint) : Act U (Adapter × Nat))) env w = _
      refine (withState_done .adapter found hstate (pure_run (a, a.hint) env (w.lending h))
        waits).trans ?_
      exact congrArg (fun heap => Outcome.done _ { w with heap }) (Heap.setPayload_back found .away)
    · rw [← clear]
      exact .nothing
  | none =>
    obtain ⟨e, w', hrun, hn⟩ := withState_refused .adapter (fun _ => [])
      (fun (a : Adapter) => pure (a, a.hint)) found hs clear env
    exact ⟨none, some e, w', hrun, hn⟩

/-- Asking for the length changes nothing at all; at most there are events of it. -/
theorem lengthHint_noted (stock : ∀ p, w.heap.payload? h = some p → p.Stock) (env : Env U) :
    ∃ a w', lengthHint h env w = .done a w' ∧ Noted env w w' := by
  rw [lengthHint, bind_run, Act.heap]
  dsimp only
  cases hp : w.heap.payload? h with
  | none => exact ⟨_, w, rfl, .nothing⟩
  | some p =>
    cases p with
    | native d s =>
      dsimp only
      obtain rfl | rfl := stock _ hp d s rfl
      · obtain ⟨a, e, w₁, hrun, hn⟩ := remaining_noted (w := w.hushed) hp rfl env
        obtain ⟨w₂, hback, hn₂⟩ := restore_noted (w := w) a hn
        refine ⟨a, w₂, ?_, hn₂⟩
        change (runHintSlot .remaining h >>= fun hint => do
          Indicator.clear
          Indicator.putBack w.pending
          pure hint) env w.hushed = _
        rw [bind_run, hrun]
        dsimp only
        exact hback
      · exact ⟨none, w, rfl, .nothing⟩
    | _ => exact ⟨_, w, rfl, .nothing⟩

/-- Asking for the length first makes no difference to a pass but for the events of it, unless there
is no room for that length. -/
theorem collectSized_noted {p : Intake U α} (stock : ∀ q, w.heap.payload? h = some q → q.Stock)
    (room : ¬View.Overstates p h env w) :
    ∃ w₁, View.collectSized p h env w = View.collect p h env w₁ ∧ Noted env w w₁ := by
  cases hreserve : w.settings.reserveFromHint with
  | true =>
    obtain ⟨count, w₁, hrun, hn⟩ := lengthHint_noted stock env
    exact ⟨w₁, View.collectSized_done hreserve hrun room, hn⟩
  | false => exact ⟨w, View.collectSized_unasked hreserve, .nothing⟩

theorem collectSized_full {p : Intake U α} (stock : ∀ q, w.heap.payload? h = some q → q.Stock)
    (full : View.Overstates p h env w) :
    ∃ w₁, View.collectSized p h env w = .fault .capacityOverflow w₁ ∧ Noted env w w₁ := by
  obtain ⟨count, w₁, hhint, hrun⟩ := View.collectSized_fault full
  obtain ⟨_, w₂, hhint', hn⟩ := lengthHint_noted stock env
  cases hhint.symm.trans hhint'
  exact ⟨w₁, hrun, hn⟩

/-- What a probe is given: nothing, a unit on an object that there is, or a new iterator with
whatever it owns; apart from that the heap is what it was. -/
def Probed (w : World U) (o : Option Handle) (w' : World U) : Prop :=
  ∃ T V, Parts (Region 1) o.toList T V ∧ Overlay w.heap.entryAt? T V w'.heap

theorem Probed.refused (ho : w.heap.InOrder) (hheap : w'.heap = w.heap) : Probed w none w' :=
  ⟨0, 0, .nil, by rw [hheap]; exact .start ho⟩

theorem Probed.acquired {e : HeapEntry} (ho : w.heap.InOrder) (found : w.heap.entryAt? h = some e)
    (env : Env U) : ∃ w', (some <$> acquire h : Act U (Option Handle)) env w = .done (some h) w' ∧
      Probed w (some h) w' := by
  obtain ⟨w', hrun, _, ho'⟩ := acquire_overlay (.start ho) found env
  refine ⟨w', ?_, 0, _, .shared .nil, ho'⟩
  change (acquire h >>= fun k => pure (some k)) env w = _
  rw [bind_run, hrun]
  rfl

theorem Probed.iterator {e : HeapEntry} (ho : w.heap.InOrder) (found : w.heap.entryAt? h = some e)
    (env : Env U) : ∃ it w', (do some <$> alloc (.iterator (← acquire h) 0) :
      Act U (Option Handle)) env w = .done (some it) w' ∧ Probed w (some it) w' := by
  obtain ⟨w₁, hacquire, _, ho₁⟩ := acquire_overlay (.start ho) found env
  obtain ⟨it, w₂, halloc, _, ho₂⟩ := alloc_overlay ho₁ (.iterator h 0) env
  refine ⟨it, w₂, ?_, _, _, .single (Region.of_units ?_ it), ho₂.congr (add_zero _) rfl⟩
  · rw [bind_run, hacquire]
    change (alloc (.iterator h 0) >>= fun k => pure (some k)) env w₁ = _
    rw [bind_run, halloc]
    rfl
  · simp [Payload.Drops]

/-- A collection whose state is there gives an adapter over a copy. -/
theorem Probed.collection {n : Nat} {c : Collection} (ho : w.heap.InOrder)
    (found : w.heap.entryAt? h = some ⟨n, .native .collection (some (.collection c))⟩)
    (alive : ∀ u ∈ c.units, w.heap.isAlive u = true) (clear : w.pending = none) (env : Env U) :
    ∃ o w', getIter h env w = .done o w' ∧ Probed w o w' := by
  have hopens : Opens False env w.heap.entryAt? h (Adapter.Before c.convert c.source) :=
    collection_opens found fun u hu => (Heap.isAlive_iff _ _).1 (alive u hu)
  obtain ⟨o, w', hrun, _, it, q, rfl, hat, ho'⟩ := (hopens (.start ho) clear).exists_done
  have hdrops : q.Drops := by
    rintro d s rfl
    cases hat <;> rfl
  exact ⟨some it, w', hrun, _, _, .single (Region.of_units hdrops it), ho'.congr (add_zero _)
    (add_zero _)⟩

theorem getIter_probed (ho : w.heap.InOrder) (clear : w.pending = none)
    (stock : ∀ p, w.heap.payload? h = some p → p.Stock)
    (alive : ∀ p, w.heap.payload? h = some p → ∀ u ∈ p.units, w.heap.isAlive u = true)
    (env : Env U) : ∃ o w', getIter h env w = .done o w' ∧ Probed w o w' := by
  cases hentry : w.heap.entryAt? h with
  | none =>
    have hp : w.heap.payload? h = none := by simp [Heap.payload?, hentry]
    obtain ⟨w', hrun, _, hheap⟩ := raise_run .runtimeError "iter() on a released object" env clear
    refine ⟨none, w', ?_, .refused ho hheap⟩
    simp only [getIter, bind_run, Act.heap, hp, hrun, pure_run]
  | some entry =>
    have hp : w.heap.payload? h = some entry.payload := by simp [Heap.payload?, hentry]
    obtain ⟨n, p⟩ := entry
    dsimp only at hp
    cases p with
    | list _ | tuple _ | set _ | str _ =>
      obtain ⟨it, w', hrun, hprobed⟩ := Probed.iterator ho hentry env
      refine ⟨some it, w', ?_, hprobed⟩
      rw [← hrun]
      simp only [getIter, bind_run, Act.heap, hp]
    | iterator _ _ =>
      obtain ⟨w', hrun, hprobed⟩ := Probed.acquired ho hentry env
      refine ⟨some h, w', ?_, hprobed⟩
      rw [← hrun]
      simp only [getIter, bind_run, Act.heap, hp]
    | none | bool _ | int _ | float _ | function _ _ =>
      obtain ⟨w', hrun, _, hheap⟩ := raise_run .typeError _ env clear
      refine ⟨none, w', ?_, .refused ho hheap⟩
      simp only [getIter, bind_run, Act.heap, hp, raiseType]
      rw [hrun]
      rfl
    | native d s =>
      obtain rfl | rfl := stock _ hp d s rfl
      · obtain ⟨w', hrun, hprobed⟩ := Probed.acquired ho hentry env
        refine ⟨some h, w', ?_, hprobed⟩
        rw [← hrun]
        simp only [getIter, bind_run, Act.heap, hp, Descriptor.adapter, runIterSlot]
      · cases hs : s.bind (·.get? .collection) with
        | some c =>
          obtain ⟨state, rfl, hstate⟩ := Option.bind_eq_some_iff.1 hs
          obtain rfl := NativeState.of_get? hstate
          exact Probed.collection ho hentry (alive _ hp) clear env
        | none =>
          obtain ⟨e, w', hrun, hn⟩ := withState_refused .collection Collection.units
            (fun (c : Collection) => do
              let copy ← holding c.units (copyCollection c)
              pure (c, copy)) hp hs clear env
          refine ⟨none, w', ?_, .refused ho hn.kept.2⟩
          simp only [getIter, bind_run, Act.heap, hp, Descriptor.collection, runIterSlot]
          rw [hrun]
          rfl

/-- Every object is there after the probe that was there before, with its count and its payload,
and there is no other. -/
theorem isIterable_keeps (deep : env.Deep 2) (ho : w.heap.InOrder)
    (stock : ∀ p, w.heap.payload? h = some p → p.Stock)
    (alive : ∀ p, w.heap.payload? h = some p → ∀ u ∈ p.units, w.heap.isAlive u = true) :
    ∃ b w', isIterable h env w = .done b w' ∧ w'.pending = w.pending ∧ w'.heap.InOrder ∧
      ∀ k, w'.heap.entryAt? k = w.heap.entryAt? k := by
  obtain ⟨o, w₁, hiter, T, V, hparts, ho₁⟩ :=
    getIter_probed (w := w.hushed) ho rfl stock alive env
  obtain ⟨w₂, hrelease, _, ho₂⟩ := releaseAll_overlay deep hparts
    (ho₁.congr (add_zero T).symm (add_zero V).symm)
  obtain ⟨w₃, hrestore, hpending, hheap⟩ := restore_run w.pending o.isSome env w₂
  refine ⟨o.isSome, w₃, ?_, hpending, hheap ▸ ho₂.inOrder, fun k => ?_⟩
  · rw [isIterable_run, bind_run, hiter]
    dsimp only
    rw [bind_run, hrelease]
    exact hrestore
  · rw [hheap]
    exact ho₂.entryAt?_eq k

theorem make_refused_keeps (deep : env.Deep 2) (ho : w.heap.InOrder)
    (stock : ∀ p, w.heap.payload? h = some p → p.Stock)
    (alive : ∀ p, w.heap.payload? h = some p → ∀ u ∈ p.units, w.heap.isAlive u = true)
    {f : Failure} (run : View.make h env w = .done (.error f) w') :
    w'.pending = w.pending ∧ ∀ k, w'.heap.entryAt? k = w.heap.entryAt? k := by
  obtain ⟨b, w₁, hiterable, hpending, -, hkept⟩ := isIterable_keeps deep ho stock alive
  cases hiterable.symm.trans (make_refused_run run)
  exact ⟨hpending, hkept⟩

end Causeway
