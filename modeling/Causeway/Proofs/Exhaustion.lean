import Causeway.Proofs.Ageing
import Causeway.Proofs.PendingErrors
/-!
# The end of an iterator

A builtin iterator keeps its sequence and its position and nothing else. At the end it stays where
it is, and whether there is a next object is looked up in the sequence each time anew. So over a set
or a text an end is for good, while over a list or a tuple it lasts until something stands at the
position. An adapter keeps that it is at its end, and over a native range an end is for good as well.
-/
set_option autoImplicit false

namespace Causeway

open Act

variable {U : Type} {env : Env U} {w w' w₁ : World U} {it seq k : Handle} {n m : Nat}
  {p q r : Payload} {a : Adapter}

/-- With a clear indicator the call for the next object has none, and the indicator stays clear. -/
structure SaysEnd (it : Handle) (env : Env U) (w w' : World U) : Prop where
  clear : w.pending = none
  run : iterNext it env w = .done none w'
  clear' : w'.pending = none

theorem iterNext_iterator (found : w.heap.payload? it = some (.iterator seq n)) (env : Env U) :
    iterNext it env w = sequenceNext it seq n env w := by
  simp only [iterNext, bind_run, Act.heap, found]

theorem sequenceNext_stop (hstop : ¬ w.heap.Offers seq n) (env : Env U) :
    sequenceNext it seq n env w = .done none w := by
  simp only [sequenceNext, askPayload, bind_run, Act.heap]
  cases hseq : w.heap.payload? seq with
  | none => rfl
  | some q =>
    have hend : q.stepAt n = .stop := by
      by_contra hstands
      exact hstop ⟨q, hseq, hstands⟩
    simp only [Option.map_some, Option.getD_some, hend]
    rfl

/-- Without a next object nothing has happened, and nothing stands at the position. -/
theorem sequenceNext_eq_none (hr : sequenceNext it seq n env w = .done none w') :
    w' = w ∧ ¬ w.heap.Offers seq n := by
  simp only [sequenceNext, askPayload, bind_run, Act.heap] at hr
  cases hseq : w.heap.payload? seq with
  | none =>
    rw [hseq] at hr
    cases hr
    refine ⟨rfl, ?_⟩
    rintro ⟨q, hq, -⟩
    rw [hseq] at hq
    cases hq
  | some q =>
    simp only [hseq, Option.map_some, Option.getD_some] at hr
    cases hstep : q.stepAt n with
    | stop =>
      rw [hstep] at hr
      cases hr
      refine ⟨rfl, ?_⟩
      rintro ⟨q', hq', hstands⟩
      rw [hseq] at hq'
      cases hq'
      exact hstands hstep
    | item k m | char c m =>
      simp only [hstep] at hr
      obtain ⟨_, _, _, hr⟩ := bind_eq_done.1 hr
      obtain ⟨_, _, _, ⟨⟩⟩ := bind_eq_done.1 hr

theorem SaysEnd.of_stop (found : w.heap.payload? it = some (.iterator seq n))
    (hstop : ¬ w.heap.Offers seq n) (clear : w.pending = none) (env : Env U) :
    SaysEnd it env w w :=
  ⟨clear, by rw [iterNext_iterator found, sequenceNext_stop hstop], clear⟩

theorem raise_eq_done {kind : ExceptionKind} {message : String}
    (hr : raise kind message env w = .done () w') : w'.pending = some ⟨kind, message⟩ := by
  cases hpending : w.pending with
  | none =>
    rw [raise_clear_run kind message env hpending] at hr
    cases hr
    rfl
  | some previous =>
    rw [raise_pending_run kind message env hpending] at hr
    split at hr <;> cases hr
    rfl

/-- Looking at the next item of an adapter and finding none brings it to its end. -/
theorem Adapter.peeked_of_peek {b : Adapter} {left : List Handle}
    (h : a.peek = (none, b, left)) : b.peeked = some none := by
  obtain ⟨t, convert, source, peeked, produced⟩ := a
  cases peeked with
  | some o =>
    simp only [peek, Prod.mk.injEq] at h
    obtain ⟨rfl, rfl, -⟩ := h
    rfl
  | none =>
    unfold peek at h
    dsimp only at h
    cases hn : source.next? with
    | none =>
      rw [hn] at h
      cases h
      rfl
    | some r =>
      rw [hn] at h
      cases h

/-- A step without an object has come to the end, or left an error. -/
theorem Adapter.step_eq_none {b : Adapter} (clear : w.pending = none)
    (hr : a.step env w = .done (b, none) w') :
    b.peeked = some none ∨ ∃ message, w'.pending = some ⟨.typeError, message⟩ := by
  obtain ⟨_, _, ⟨⟩, hr⟩ := bind_eq_done.1 hr
  rw [clear] at hr
  simp only [Option.isSome_none, Bool.false_eq_true, ↓reduceIte] at hr
  rcases hpeek : a.peek with ⟨o, b', left⟩
  rw [hpeek] at hr
  cases o with
  | none =>
    obtain ⟨_, _, _, hr⟩ := bind_eq_done.1 hr
    obtain ⟨_, _, _, ⟨⟩⟩ := bind_eq_done.1 hr
    exact .inl (peeked_of_peek hpeek)
  | some v =>
    obtain ⟨out, w₁, _, hr⟩ := bind_eq_done.1 hr
    obtain ⟨pending, w₂, -, hr⟩ := bind_eq_done.1 hr
    match out, pending, hr with
    | some k, false, hr => obtain ⟨_, _, _, ⟨⟩⟩ := bind_eq_done.1 hr
    | some _, true, hr | none, _, hr =>
      obtain ⟨_, _, hheld, ⟨⟩⟩ := bind_eq_done.1 hr
      obtain ⟨_, _, _, hraise⟩ := bind_eq_done.1 (holding_eq_done hheld)
      obtain ⟨_, _, _, hraise⟩ := bind_eq_done.1 hraise
      obtain ⟨_, _, _, hraise⟩ := bind_eq_done.1 hraise
      exact .inr ⟨_, raise_eq_done hraise⟩

theorem SaysEnd.of_peeked (found : w.heap.payload? it = some (.native .adapter (some (.adapter a))))
    (hend : a.peeked = some none) (clear : w.pending = none) (env : Env U) :
    ∃ w', SaysEnd it env w w' := by
  have hstep : a.step env (w.lending it) = .done (a, none) { w.lending it with
      client := env.observe (.sequenceEnded a.produced) w.client } := by
    simp [Adapter.step, Adapter.peek, hend, bind_run, Indicator.isSet, World.lending, clear, holding,
      onFault, releaseAll, pure_run, Act.emit]
  have waits : (w.lending it).heap.payload? it = some .away :=
    (Heap.setPayload_payload? found _ it).trans (if_pos rfl)
  have hstate : withState it .adapter Option.toList Adapter.step env w = _ :=
    withState_done .adapter found rfl hstep waits
  exact ⟨_, clear, iterNext_done found hstate fun _ => by simp [World.lending, clear], clear⟩

/-- With a clear indicator the refusal of an adapter at work is all there is. -/
theorem iterNext_refuses (away : w.heap.payload? it = some .away) (clear : w.pending = none)
    (env : Env U) : ∃ w', iterNext it env w = .done none w' ∧ w'.heap = w.heap ∧
      w'.pending = some ⟨.runtimeError, "native_iterator already executing"⟩ := by
  obtain ⟨w', hraise, hpending, hheap⟩ :=
    raise_run .runtimeError "native_iterator already executing" env clear
  refine ⟨w', ?_, hheap, hpending⟩
  rw [iterNext_away away]
  refine bind_eq_done.2 ⟨(), w', hraise, ?_⟩
  simp [bind_run, Indicator.holds, hpending, pure_run]

section

variable {last : Heap} {d : Descriptor} {o : Option NativeState} {s : NativeState}

theorem putStateBack_lives {α : Type} {finish : Act U Unit} {x y : α} (ho : w.heap.InOrder)
    (found : w.heap.payload? it = some (.native d o))
    (lent : (w.heap.setPayload it (.native d none)).Becomes w₁.heap) (hfinish : finish.Ages env)
    (hr : (do
      if !(← putStateBack it s) then finish
      pure x : Act U α) env w₁ = .done y w') (b : w'.heap.Becomes last)
    (few : last.stats.deallocations < w.heap.stats.deallocations + 2 ^ 32)
    (after : last.payload? it = some r) :
    y = x ∧ ∃ d', w' = { w₁ with heap := w₁.heap.setPayload it (.native d' (some s)) } ∧
      w₁.heap.payload? it = some (.native d' none) := by
  -- without it the object is not there any more
  have hlost : (finish >>= fun _ => pure x) env w₁ = .done y w' →
      w₁.heap.payload? it = some (.native d none) := by
    intro hrun
    have hrest : (finish >>= fun _ => (pure x : Act U α)).Ages env := .bind hfinish fun _ => .pure x
    have hlend := Heap.setPayload_payload? found (.native d none) it
    rw [if_pos rfl] at hlend
    obtain ⟨e, he, -⟩ := (Heap.payload?_eq_some_iff _ _ _).1 found
    obtain ⟨q, hq, haged, -⟩ := lent.through ((hrest.done hrun).trans b)
      (Heap.setPayload_inOrder ho it _) (by rwa [Heap.setPayload_of_entryAt? he]) hlend after
    rw [hq, haged.of_away]
  rw [bind_run, putStateBack, bind_run] at hr
  simp only [Act.heap] at hr
  cases found₁ : w₁.heap.payload? it with
  | none =>
    rw [found₁] at hr hlost
    cases hlost hr
  | some p =>
    rw [found₁] at hr hlost
    cases p with
    | native d' o' =>
      cases o' with
      | none =>
        cases hr
        exact ⟨rfl, d', rfl, rfl⟩
      | some s' => cases hlost hr
    | _ => cases hlost hr

theorem nextBySlot_eq_none (slot : NextSlot) (hr : (do
      let found ← runNextSlot slot it
      if found.isNone then
        if ← Indicator.holds .stopIteration then Indicator.clear
      pure found : Act U (Option Handle)) env w = .done none w') (clear : w'.pending = none) :
    ∃ w₁, runNextSlot slot it env w = .done none w₁ ∧ w'.heap = w₁.heap ∧
      ∀ e, w₁.pending = some e → e.kind = .stopIteration := by
  obtain ⟨out, w₁, hslot, hr⟩ := bind_eq_done.1 hr
  refine ⟨w₁, ?_⟩
  cases out with
  | some k => cases hr
  | none =>
    refine ⟨hslot, ?_⟩
    simp only [Option.isNone_none, ↓reduceIte, bind_run, Indicator.holds] at hr
    cases hpending : w₁.pending with
    | none =>
      simp only [hpending, Option.any_none] at hr
      cases hr
      refine ⟨rfl, fun e he => ?_⟩
      cases he
    | some e =>
      simp only [hpending, Option.any_some] at hr
      by_cases hstop : e.kind = .stopIteration
      · obtain ⟨w₂, hclear, -, hheap⟩ := clear_run env w₁
        simp only [hstop, beq_self_eq_true, ↓reduceIte] at hr
        rw [bind_run, hclear] at hr
        cases hr
        refine ⟨hheap, fun e' he' => ?_⟩
        cases he'
        exact hstop
      · rw [if_neg (by simpa using hstop)] at hr
        cases hr
        rw [hpending] at clear
        cases clear

/-- An adapter that was asked in vain and lives on is at its end, or has left an error. -/
theorem withState_step_eq_none (henv : env.Ages) (clear : w.pending = none) (ho : w.heap.InOrder)
    (found : w.heap.payload? it = some (.native .adapter o)) {answer : Option (Option Handle)}
    (hr : withState it .adapter Option.toList Adapter.step env w = .done answer w')
    (hnone : answer.join = none) (b : w'.heap.Becomes last)
    (few : last.stats.deallocations < w.heap.stats.deallocations + 2 ^ 32)
    (after : last.payload? it = some r) :
    (∃ d' a, w'.heap.payload? it = some (.native d' (some (.adapter a))) ∧ a.peeked = some none) ∨
      ∃ e, w'.pending = some e ∧ e.kind ≠ .stopIteration := by
  unfold withState at hr
  rw [bind_run] at hr
  simp only [Act.heap, found] at hr
  cases o with
  | none =>
    obtain ⟨_, _, hraise, ⟨⟩⟩ := bind_eq_done.1 hr
    exact .inr ⟨_, raise_eq_done hraise, by simp⟩
  | some s =>
    dsimp only at hr
    rw [bind_run] at hr
    simp only [Act.setPayload, Act.updateHeap] at hr
    cases hs : s.get? .adapter with
    | none =>
      simp only [hs] at hr
      obtain ⟨_, w₁, hheld, hrest⟩ := bind_eq_done.1 hr
      have hraise := holding_eq_done hheld
      have hpending := raise_eq_done hraise
      obtain ⟨-, d', rfl, -⟩ := putStateBack_lives ho found ((Act.Ages.raise _ _).done hraise)
        (.disposeState henv _ s) hrest b few after
      exact .inr ⟨_, hpending, by simp⟩
    | some typed =>
      simp only [hs] at hr
      obtain ⟨⟨a, out⟩, w₁, hstep, hrest⟩ := bind_eq_done.1 hr
      have hages := Act.Ages.library henv (step_composed typed)
      obtain ⟨rfl, d', rfl, hwaits⟩ := putStateBack_lives ho found (hages.done hstep)
        (.onFault (.disposeState henv _ _) (.releaseAll henv _)) hrest b few after
      obtain rfl : out = none := hnone
      obtain hend | ⟨message, hpending⟩ := Adapter.step_eq_none (by exact clear) hstep
      · exact .inl ⟨d', a, (Heap.setPayload_payload? hwaits _ it).trans (if_pos rfl), hend⟩
      · exact .inr ⟨_, hpending, by simp⟩

/-- An adapter that said the end and lives on is at its end. -/
theorem SaysEnd.peeked (henv : env.Ages) (ends : SaysEnd it env w w') (ho : w.heap.InOrder)
    (found : w.heap.payload? it = some (.native .adapter o)) (b : w'.heap.Becomes last)
    (few : last.stats.deallocations < w.heap.stats.deallocations + 2 ^ 32)
    (after : last.payload? it = some r) : ∃ a : Adapter, a.peeked = some none ∧
      (Payload.native .adapter (some (.adapter a))).Ages r := by
  obtain ⟨clear, hr, clear'⟩ := ends
  have hwhole := (Act.Ages.library henv (iterNext_composed it)).done hr
  obtain ⟨q, hq, haged, haged'⟩ := hwhole.through b ho few found after
  simp only [iterNext, bind_run, Act.heap, found, Descriptor.adapter] at hr
  obtain ⟨w₁, hslot, hheap, hplain⟩ := nextBySlot_eq_none .step hr clear'
  rw [hheap] at b hq
  obtain ⟨answer, w₂, hstate, hanswer⟩ := bind_eq_done.1 hslot
  simp only [pure_run, Outcome.done.injEq] at hanswer
  obtain ⟨hnone, rfl⟩ := hanswer
  obtain ⟨d', a, hpayload, hend⟩ | ⟨e, hpending, hkind⟩ :=
    withState_step_eq_none henv clear ho found hstate hnone b few after
  · rw [hpayload] at hq
    cases hq
    cases haged <;> exact ⟨a, hend, haged'⟩
  · exact absurd (hplain e hpending) hkind

inductive Heap.Iterates (heap : Heap) (it : Handle) : Prop where
  | builtin {seq : Handle} {n : Nat} {body : Payload}
      (found : heap.payload? it = some (.iterator seq n)) (alive : heap.payload? seq = some body)
  | adapter {s : Option NativeState} (found : heap.payload? it = some (.native .adapter s))

/-- Something stands where nothing stood: behind the last item of a list, or in a slot of a tuple. -/
inductive Payload.Filled (n : Nat) : Payload → Payload → Prop where
  | appended {items more : List Handle} (short : items.length ≤ n)
      (long : n < (items ++ more).length) : Filled n (.list items) (.list (items ++ more))
  | slot {slots slots' : List (Option Handle)} {k : Handle}
      (empty : ∀ k, slots[n]? ≠ some (some k)) (filled : slots'[n]? = some (some k)) :
      Filled n (.tuple slots) (.tuple slots')

/-- Time puts something where nothing stood in no other way. -/
theorem Payload.Ages.filled (h : p.Ages q) (hp : p.stepAt n = .stop) (hq : q.stepAt n ≠ .stop) :
    p.Filled n q := by
  cases h with
  | list items more =>
    have hshort : ¬ n < items.length := fun hlt => (stepAt_list_ne_stop items).2 hlt hp
    exact .appended (Nat.not_lt.1 hshort) ((stepAt_list_ne_stop _).1 hq)
  | @tuple slots slots' _ =>
    obtain ⟨k, hk⟩ := (stepAt_tuple_ne_stop slots').1 hq
    exact .slot (fun k hk => (stepAt_tuple_ne_stop slots).2 ⟨k, hk⟩ hp) hk
  | refl | iterator | away | native => exact absurd hp hq

/-- Where a builtin iterator said the end it says so again, until something stands there. -/
theorem says_end_again (clear : w'.pending = none) (b : w.heap.Becomes w'.heap)
    (ho : w.heap.InOrder)
    (few : w'.heap.stats.deallocations < w.heap.stats.deallocations + 2 ^ 32)
    (found : w.heap.payload? it = some (.iterator seq n)) (alive : w.heap.payload? seq = some p)
    (hstop : ¬ w.heap.Offers seq n) (lives : w'.heap.payload? it = some r) :
    (∀ env : Env U, SaysEnd it env w' w') ∨
      ∃ q, w'.heap.payload? seq = some q ∧ p.Filled n q := by
  obtain ⟨-, v, a⟩ := b ho
  have hit := a.eq_zero few found lives
  obtain ⟨_, hm, haged⟩ := a.payload it _ hit found
  obtain ⟨m, -, rfl⟩ := haged.of_iterator
  by_cases hoffers : w'.heap.Offers seq m
  · obtain ⟨q, hq, hstands⟩ := hoffers
    have hseq := a.eq_zero few alive hq
    obtain ⟨q', hq', haged'⟩ := a.payload seq p hseq alive
    rw [hq] at hq'
    cases hq'
    -- the iterator is where it was, or it has gone on and found something there
    have hoffersn : q.stepAt n ≠ .stop := by
      by_cases hnm : n = m
      · exact hnm ▸ hstands
      · obtain ⟨q', hq', hstands'⟩ := a.passed it seq n m hit hseq found hm hnm
        rw [hq] at hq'
        cases hq'
        exact hstands'
    have hend : p.stepAt n = .stop := by
      by_contra hne
      exact hstop ⟨p, alive, hne⟩
    exact .inr ⟨q, hq, haged'.filled hend hoffersn⟩
  · exact .inl fun env => .of_stop hm hoffers clear env

end

namespace Machine.Program

/-- Worlds that come up later: acts of the library or of the client lead there, or fault on the
way. -/
inductive Later : World Client → World Client → Prop where
  | refl (w : World Client) : Later w w
  | act {w w₁ w₂ : World Client} (h : Later w w₁) (n : Nat) {α : Type} {act : Run α}
      (composed : Composed Own act) (run : (act (envOf n) w₁).EndsIn w₂) : Later w w₂

theorem Later.becomes {w w' : World Client} (h : Later w w') : w.heap.Becomes w'.heap := by
  induction h with
  | refl => exact .refl _
  | act _ n composed run ih => exact ih.trans (composed.ages (envOf_ages n) Own.ages _ _ run)

/-- What the operations of a program lead to, up to the first fault. -/
theorem Later.steps {n : Nat} {ops : List Op} {entries : List Entry} {w w₁ w₂ : World Client}
    (h : Later w w₁) (run : Program.steps (envOf n) ops w₁ = some (entries, w₂)) : Later w w₂ :=
  steps_induct (fun op _ _ _ hw hend => hw.act n (runOp_composed [] op) hend) h run

/-- What the emptying of the registers leads to, whatever faults on the way. -/
theorem Later.emptied {n : Nat} {faults : List Fault} {w w₁ w₂ : World Client} (h : Later w w₁)
    (run : emptyRegisters (envOf n) w₁ = .done faults w₂) : Later w w₂ := by
  have hrounds := emptyRegisters_induct (envOf n) w₁ (P := fun _ w' => Later w w') ?_ h
  · rw [run] at hrounds
    exact hrounds.1
  · intro faults w' name x rest _ hw
    have hround : Composed Own (emptyRegister name >>= fun _ => x.drop) :=
      .bind (emptyRegister_composed name) fun _ => drop_composed x
    cases hr : (emptyRegister name >>= fun _ => x.drop) (envOf n) w' with
    | done _ w'' | fault _ w'' => exact hw.act n hround (hr ▸ rfl)
    | unfinished => trivial

/-- An iterator that lives on after it said the end says so again, whatever happened in between, but
in two cases. A builtin iterator may find that something stands by now where nothing did, which
happens in lists and tuples only. And an adapter whose state a call is at work on refuses to be
asked. A handle is known to be the same object as long as fewer objects died than a generation
counts. -/
theorem Visited.end_lasts {n : Nat} {it : Handle} {w w₁ w₂ : World Client} (visited : Visited w)
    (iterates : w.heap.Iterates it) (ended : SaysEnd it (envOf n) w w₁) (later : Later w₁ w₂)
    (lives : w₂.heap.isAlive it = true)
    (few : w₂.heap.stats.deallocations < w.heap.stats.deallocations + 2 ^ 32)
    (clear : w₂.pending = none) :
    (∀ env : Env Client, ∃ w₃, SaysEnd it env w₂ w₃) ∨
    (∃ seq m p q, w.heap.payload? it = some (.iterator seq m) ∧ w.heap.payload? seq = some p ∧
      w₂.heap.payload? seq = some q ∧ p.Filled m q) ∨
    (w₂.heap.payload? it = some .away ∧ ∀ env : Env Client, ∃ w₃,
      iterNext it env w₂ = .done none w₃ ∧ w₃.heap = w₂.heap ∧
        w₃.pending = some ⟨.runtimeError, "native_iterator already executing"⟩) := by
  have ho := visited.reached.inOrder
  obtain ⟨e, he⟩ := (Heap.isAlive_iff _ _).1 lives
  obtain ⟨r, after⟩ : ∃ r, w₂.heap.payload? it = some r :=
    ⟨_, (Heap.payload?_eq_some_iff _ _ _).2 ⟨e, he, rfl⟩⟩
  have hkept : ∀ a : Adapter, a.peeked = some none →
      w₂.heap.payload? it = some (.native .adapter (some (.adapter a))) →
      ∀ env : Env Client, ∃ w₃, SaysEnd it env w₂ w₃ :=
    fun a hend found env => SaysEnd.of_peeked found hend clear env
  cases iterates with
  | @builtin seq m p found alive =>
    have hrun := ended.run
    rw [iterNext_iterator found] at hrun
    obtain ⟨rfl, hstop⟩ := sequenceNext_eq_none hrun
    obtain hagain | ⟨q, hq, hfilled⟩ :=
      says_end_again clear later.becomes ho few found alive hstop after
    · exact .inl fun env => ⟨w₂, hagain env⟩
    · exact .inr (.inl ⟨seq, m, p, q, found, alive, hq, hfilled⟩)
  | adapter found =>
    obtain ⟨a, hend, haged⟩ := ended.peeked (envOf_ages n) ho found later.becomes few after
    cases haged with
    | refl => exact .inl (hkept a hend after)
    | native _ lasts =>
      rw [lasts a rfl hend] at after
      exact .inl (hkept a hend after)
    | away =>
      exact .inr (.inr ⟨after, iterNext_refuses after clear⟩)

def walk : List Op :=
  [.op (.new (.tuple [.int 7])) (some "t") none false,
    .op (.getIter "t") (some "i") none false, .op (.next "i") none none false]

/-- Another one does, and the item is replaced. -/
def meanwhile : List Op :=
  [.op (.getIter "t") (some "j") none false, .op (.next "j") none none false,
    .op (.setArgument "t" 0 (.bool true)) none none false, .op (.next "j") none none false]

/-- Where an iterator over a tuple stands, and how many slots the tuple has. -/
def tuplePlace? (heap : Heap) (it : Handle) : Option (Handle × Nat × Nat) :=
  match heap.payload? it with
  | some (.iterator seq n) =>
    match heap.payload? seq with
    | some (.tuple slots) => some (seq, n, slots.length)
    | _ => none
  | _ => none

theorem payload?_of_tuplePlace? {heap : Heap} {it seq : Handle} {n m : Nat}
    (h : tuplePlace? heap it = some (seq, n, m)) : heap.payload? it = some (.iterator seq n) ∧
      ∃ slots, heap.payload? seq = some (.tuple slots) ∧ slots.length = m := by
  unfold tuplePlace? at h
  split at h
  · split at h
    · cases h
      exact ⟨by assumption, _, by assumption, rfl⟩
    · cases h
  · cases h

theorem walk_meanwhile :
    ((steps (envOf 6) walk (start false {})).bind fun r =>
      (steps (envOf 6) meanwhile r.2).map fun r' =>
        (tuplePlace? r.2.heap ⟨2, 0⟩, tuplePlace? r'.2.heap ⟨2, 0⟩,
          r.2.pending.isNone && r'.2.pending.isNone, r'.2.heap.stats.deallocations)) =
      some (some (⟨1, 0⟩, 1, 1), some (⟨1, 0⟩, 1, 1), true, 1) := by
  decide +kernel

/-- The iterator that has walked to the end stays there while another one walks and the tuple is
given another item. -/
theorem Visited.end_lasts_walked : ∃ e₁ e₂ w₁ w₂,
    Program.steps (envOf 6) walk (Program.start false {}) = some (e₁, w₁) ∧
    SaysEnd ⟨2, 0⟩ (envOf 6) w₁ w₁ ∧
    Program.steps (envOf 6) meanwhile w₁ = some (e₂, w₂) ∧
    ∀ env : Env Client, ∃ w₃, SaysEnd ⟨2, 0⟩ env w₂ w₃ := by
  obtain ⟨⟨e₁, w₁⟩, hrun₁, hrest⟩ := Option.bind_eq_some_iff.1 walk_meanwhile
  obtain ⟨⟨e₂, w₂⟩, hrun₂, heq⟩ := Option.map_eq_some_iff.1 hrest
  simp only [Prod.mk.injEq, Bool.and_eq_true, Option.isNone_iff_eq_none] at heq
  obtain ⟨hbefore, hafter, ⟨clear, clear'⟩, hgone⟩ := heq
  obtain ⟨found, slots, htuple, hlength⟩ := payload?_of_tuplePlace? hbefore
  obtain ⟨found', slots', htuple', hlength'⟩ := payload?_of_tuplePlace? hafter
  have hnothing : ¬w₁.heap.Offers ⟨1, 0⟩ 1 := fun ⟨q, hq, hstands⟩ => by
    rw [htuple] at hq
    cases hq
    obtain ⟨k, hk⟩ := (Payload.stepAt_tuple_ne_stop slots).1 hstands
    rw [List.getElem?_eq_none hlength.le] at hk
    cases hk
  have ended : SaysEnd ⟨2, 0⟩ (envOf 6) w₁ w₁ := .of_stop found hnothing clear _
  have lives : w₂.heap.isAlive ⟨2, 0⟩ = true := by
    obtain ⟨e, he, -⟩ := (Heap.payload?_eq_some_iff _ _ _).1 found'
    exact (Heap.isAlive_iff _ _).2 ⟨e, he⟩
  have few : w₂.heap.stats.deallocations < w₁.heap.stats.deallocations + 2 ^ 32 := by omega
  refine ⟨e₁, e₂, w₁, w₂, hrun₁, ended, hrun₂, ?_⟩
  obtain hagain | ⟨seq, m, p, q, hiterator, -, hq, hfilled⟩ | ⟨away, -⟩ :=
    Visited.end_lasts ((Visited.start false {}).steps hrun₁) (.builtin found htuple) ended
      (.steps (.refl w₁) hrun₂) lives few clear'
  · exact hagain
  · rw [found] at hiterator
    cases hiterator
    rw [htuple'] at hq
    cases hq
    cases hfilled with
    | slot _ filled =>
      rw [List.getElem?_eq_none hlength'.le] at filled
      cases filled
  · rw [found'] at away
    cases away

def idleHeap : Heap :=
  ((Heap.empty.insert (.list [])).2.insert (.iterator ⟨0, 0⟩ 0)).2

def idle : World Client := { start false {} with heap := idleHeap }

theorem idle_visited : Visited idle :=
  have hlist := (Visited.start false {}).heap (.insert .empty (.list []))
  hlist.heap (.insert _ (.iterator ⟨0, 0⟩ 0))

theorem idle_ends (env : Env Client) : SaysEnd ⟨1, 0⟩ env idle idle :=
  .of_stop rfl (fun ⟨_, hq, hstands⟩ => by cases hq; exact hstands rfl) rfl env

/-- An item is appended behind the end, and the iterator goes on. -/
theorem end_passes : ∃ w w', Visited idle ∧ SaysEnd ⟨1, 0⟩ (envOf 3) idle idle ∧ Later idle w ∧
    w.heap.isAlive ⟨1, 0⟩ = true ∧ w.pending = none ∧
    iterNext ⟨1, 0⟩ (envOf 3) w = .done (some ⟨2, 0⟩) w' := by
  have hnew : Composed Own (alloc .none : Run Handle) := .alloc rfl
  have happend : Composed Own (appendItem ⟨0, 0⟩ ⟨2, 0⟩ : Run Bool) := appendItem_composed _ _
  exact ⟨_, _, idle_visited, idle_ends _, ((Later.refl idle).act 3 hnew rfl).act 3 happend rfl, rfl,
    rfl, rfl⟩

end Machine.Program

end Causeway
