import Causeway.Proofs.Draining
/-!
# An adapter under a pending error

An error that is pending belongs to someone else, and an adapter that is asked for an item meanwhile
consumes nothing: its state goes out and comes back as it was, and no user code is entered. What the
protocol makes of the answer is another matter. It sees an end and a `StopIteration`, and takes that
for the adapter's own way of saying so.
-/
set_option autoImplicit false

namespace Causeway

open Act

variable {U β : Type} {h : Handle} {env : Env U} {w : World U} {a : Adapter} {e : Raised}

/-- A payload that was replaced for a while and is put back leaves no trace. -/
theorem Heap.setPayload_back {heap : Heap} {p : Payload} (hp : heap.payload? h = some p)
    (q : Payload) : (heap.setPayload h q).setPayload h p = heap := by
  obtain ⟨entry, found, rfl⟩ := (payload?_eq_some_iff heap h p).1 hp
  have replaced := (setPayload_entryAt? found q h).trans (if_pos rfl)
  obtain ⟨slots, free, stats⟩ := heap
  have here := (entryAt?_eq_some_iff _ _ _).1 found
  obtain ⟨bound, slot⟩ := Array.getElem?_eq_some_iff.1 here
  rw [setPayload_of_entryAt? replaced, setPayload_of_entryAt? found]
  simp only [setEntry, Array.setIfInBounds_setIfInBounds, ← slot]
  rw [Array.setIfInBounds_def, dif_pos bound, Array.set_getElem_self]

theorem clear_pending_run (pending : w.pending = some e) :
    Indicator.clear env w =
      .done () { w with pending := none, client := env.observe (.cleared e.kind) w.client } := by
  simp [Indicator.clear, bind_run, Indicator.take, Indicator.swap, pending, emit]

theorem clear_none_run (clear : w.pending = none) : Indicator.clear env w = .done () w := by
  obtain ⟨heap, pending, settings, client⟩ := w
  cases clear
  rfl

namespace Adapter

variable (env) in
theorem step_pending (pending : w.pending = some e) : a.step env w = .done (a, none) w := by
  simp [step, bind_run, Indicator.isSet, pending, pure_run]

variable (env) in
theorem nextSlot_pending (found : w.heap.payload? h = some (.native .adapter (some (.adapter a))))
    (pending : w.pending = some e) : runNextSlot .step h env w = .done none w := by
  have waits : (w.lending h).heap.payload? h = some .away :=
    (Heap.setPayload_payload? found _ h).trans (if_pos rfl)
  have step : a.step env (w.lending h) = .done (a, none) (w.lending h) := step_pending env pending
  have back : (w.lending h).heap.setPayload h (.native .adapter (some (.adapter a))) = w.heap :=
    Heap.setPayload_back found .away
  rw [runNextSlot, bind_run, withState_done .adapter found rfl step waits]
  exact congrArg (fun heap => Outcome.done none { w with heap }) back

variable (env) in
theorem iterNext_pending (found : w.heap.payload? h = some (.native .adapter (some (.adapter a))))
    (pending : w.pending = some e) :
    iterNext h env w =
      if e.kind = .stopIteration then
        .done none { w with pending := none, client := env.observe (.cleared e.kind) w.client }
      else .done none w := by
  have slot := nextSlot_pending env found pending
  simp only [iterNext, bind_run, Act.heap, found, Descriptor.adapter, slot, Option.isNone_none,
    if_true, Indicator.holds, pending, Option.any_some]
  by_cases stop : e.kind = .stopIteration
  · rw [if_pos stop, if_pos (beq_iff_eq.2 stop), bind_run, clear_pending_run pending]
    rfl
  · rw [if_neg stop, if_neg (mt beq_iff_eq.1 stop)]
    rfl

variable (env) in
/-- Whoever asks under a pending error gets nothing and changes nothing, unless the error is a
`StopIteration`: that one is cleared. Either way the adapter is where it was, so once the indicator
is cleared everything goes on as if nobody had asked. -/
theorem leaves_pending_error
    (found : w.heap.payload? h = some (.native .adapter (some (.adapter a))))
    (pending : w.pending = some e) :
    (e.kind ≠ .stopIteration → iterNext h env w = .done none w) ∧
    (e.kind = .stopIteration → iterNext h env w =
      .done none { w with pending := none, client := env.observe (.cleared e.kind) w.client }) ∧
    ∀ rest : Act U β,
      (do let _ ← iterNext h; Indicator.clear; rest : Act U β) env w =
        (do Indicator.clear; rest : Act U β) env w := by
  have call := iterNext_pending env found pending
  refine ⟨fun kind => call.trans (if_neg kind), fun kind => call.trans (if_pos kind), ?_⟩
  intro rest
  rw [bind_run, bind_run, call, clear_pending_run pending]
  split_ifs
  · change (Indicator.clear >>= fun _ => rest) env _ = _
    rw [bind_run, clear_none_run rfl]
  · change (Indicator.clear >>= fun _ => rest) env w = _
    rw [bind_run, clear_pending_run pending]

def halfway : Adapter where
  elem := .i64
  convert := none
  source := .listed (t := .i64) [] true
  peeked := some (some (5 : Int64))
  produced := 1

def halfwayWorld (kind : ExceptionKind) : World Nat where
  heap := (Heap.empty.insert (.native .adapter (some (.adapter halfway)))).2
  pending := some ⟨kind, "elsewhere"⟩
  settings := {}
  client := 0

def clearedNext : Act Nat (Option Handle) := do
  Indicator.clear
  iterNext ⟨0, 0⟩

theorem clearedNext_halfway (kind : ExceptionKind) :
    (clearedNext impatient (halfwayWorld kind)).answer? = some (some ⟨1, 0⟩) := by
  cases kind <;> decide +kernel

theorem leaves_pending_error_halfway :
    iterNext ⟨0, 0⟩ impatient (halfwayWorld .valueError) = .done none (halfwayWorld .valueError) ∧
    iterNext ⟨0, 0⟩ impatient (halfwayWorld .stopIteration) =
      .done none { halfwayWorld .stopIteration with pending := none } ∧
    ∀ kind, ((do let _ ← iterNext ⟨0, 0⟩; clearedNext : Act Nat (Option Handle))
      impatient (halfwayWorld kind)).answer? = some (some ⟨1, 0⟩) := by
  have found (kind : ExceptionKind) : (halfwayWorld kind).heap.payload? ⟨0, 0⟩ =
      some (.native .adapter (some (.adapter halfway))) := rfl
  refine ⟨?_, ?_, fun kind => ?_⟩
  · exact (leaves_pending_error (β := Unit) impatient (found .valueError) rfl).1 nofun
  · exact (leaves_pending_error (β := Unit) impatient (found .stopIteration) rfl).2.1 rfl
  · exact (congrArg Outcome.answer? ((leaves_pending_error impatient (found kind) rfl).2.2
      (iterNext ⟨0, 0⟩))).trans (clearedNext_halfway kind)

/-- A `StopIteration` that nobody here raised is gone after the call. -/
theorem forgets_stopIteration :
    (halfwayWorld .stopIteration).pending = some ⟨.stopIteration, "elsewhere"⟩ ∧
    ((do let _ ← iterNext ⟨0, 0⟩; Indicator.get : Act Nat (Option Raised))
      impatient (halfwayWorld .stopIteration)).answer? = some none :=
  ⟨rfl, by decide +kernel⟩

end Adapter

end Causeway
