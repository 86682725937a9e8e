import Causeway.Proofs.Sparing
import Causeway.Proofs.PassConservation
/-!
# Draining a native sequence

An adapter hands the items of a native sequence over one by one. An item leaves the sequence when
its conversion does, and only then: whatever the converter did instead, the item is what the next
call offers. While a call runs, the object has no state to be called on, so nothing the converter
does to the adapter itself can move it on.
-/
set_option autoImplicit false

namespace Causeway

open Act

variable {U α : Type}

namespace Source

variable {t : NativeType} {s rest : Source t} {v : t.Value}

theorem span_toList (a b : Int) :
    (span a b).toList = (List.range (b - a).toNat).map fun (i : Nat) => Int64.ofInt (a + i) := rfl

theorem span_length (a b : Int) : (span a b).toList.length = (b - a).toNat := by
  rw [span_toList]
  exact (List.length_map _).trans List.length_range

theorem next?_none (h : s.next? = none) : s.toList = [] := by
  cases s with
  | listed items counted => cases items <;> simp_all [next?, toList]
  | gapped wait items => cases wait <;> cases items <;> simp_all [next?, toList]
  | span a b =>
    have hle : b ≤ a := by
      by_contra hlt
      simp [next?, Int.lt_of_not_ge hlt] at h
    exact List.eq_nil_of_length_eq_zero (by rw [span_length]; omega)

theorem next?_some (h : s.next? = some (v, rest)) :
    s.toList = v :: rest.toList ∧ s.beyond = rest.beyond := by
  cases s with
  | listed items counted =>
    cases items with
    | nil => simp [next?] at h
    | cons x xs =>
      obtain ⟨rfl, rfl⟩ := Prod.mk.inj (Option.some.inj h)
      exact ⟨rfl, rfl⟩
  | gapped wait items =>
    cases wait <;> cases items <;> simp only [next?, reduceCtorEq] at h
    obtain ⟨rfl, rfl⟩ := Prod.mk.inj (Option.some.inj h)
    exact ⟨rfl, rfl⟩
  | span a b =>
    simp only [next?] at h
    split at h
    · rename_i hlt
      obtain ⟨rfl, rfl⟩ := Prod.mk.inj (Option.some.inj h)
      have hcount : (b - a).toNat = (b - (a + 1)).toNat + 1 := by omega
      refine ⟨?_, rfl⟩
      rw [span_toList, span_toList, hcount, List.range_succ_eq_map, List.map_cons, List.map_map]
      refine congrArg₂ List.cons (by rw [Nat.cast_zero, add_zero]) (List.map_congr_left fun i _ => ?_)
      rw [Function.comp_apply, Nat.succ_eq_add_one, Nat.cast_add, Nat.cast_one, add_assoc,
        add_comm (1 : Int)]
    · cases h

/-- The sequence says how many items it has left, all the way. -/
def Sized (s : Source t) : Prop := s.hint = s.toList.length ∧ s.toList.length < 2 ^ 64

theorem hint_le (s : Source t) : s.hint ≤ s.toList.length := by
  cases s with
  | listed items counted => cases counted <;> simp [hint, toList]
  | gapped wait items => simp [hint]
  | span a b =>
    rw [span_length]
    exact min_le_left _ _

theorem Sized.next? (hs : s.Sized) (h : s.next? = some (v, rest)) : rest.Sized := by
  obtain ⟨hlist, _⟩ := next?_some h
  obtain ⟨hhint, hlt⟩ := hs
  rw [hlist, List.length_cons] at hhint hlt
  refine ⟨?_, by omega⟩
  cases s with
  | listed items counted =>
    cases items with
    | nil => simp [Source.next?] at h
    | cons x xs =>
      obtain ⟨rfl, rfl⟩ := Prod.mk.inj (Option.some.inj h)
      cases counted with
      | true => rfl
      | false => simp [hint] at hhint
  | gapped wait items => simp [hint] at hhint
  | span a b =>
    simp only [Source.next?] at h
    split at h
    · obtain ⟨rfl, rfl⟩ := Prod.mk.inj (Option.some.inj h)
      rw [span_length] at hlt ⊢
      simp only [hint, Nat.pow_eq]
      omega
    · cases h

end Source

namespace Adapter

/-- An adapter over a sequence of which the first `got` items were handed over. -/
inductive Over {t : NativeType} (code : Option CodeId) (whole : Source t) (got : Nat) :
    Adapter → Prop where
  | ahead {s : Source t} (left : s.toList = whole.toList.drop got)
      (beyond : s.beyond.flatMap t.units = []) (sized : whole.Sized → s.Sized) :
      Over code whole got ⟨t, code, s, none, got⟩
  | looked {s : Source t} {v : t.Value} (left : v :: s.toList = whole.toList.drop got)
      (beyond : s.beyond.flatMap t.units = []) (sized : whole.Sized → s.Sized) :
      Over code whole got ⟨t, code, s, some (some v), got⟩
  | ended (left : whole.toList.drop got = []) : Over code whole got ⟨t, code, .spent, some none, got⟩

variable {t : NativeType} {code : Option CodeId} {whole : Source t} {got : Nat} {a b : Adapter}

theorem Over.start (beyond : whole.beyond.flatMap t.units = []) :
    Over code whole 0 (.start whole code) :=
  .ahead rfl beyond id

/-- What the adapter says is left is no more than there is; a sequence that says it exactly is
believed. -/
theorem Over.hint (ha : Over code whole got a) :
    a.hint ≤ whole.toList.length - got ∧ (whole.Sized → a.hint = whole.toList.length - got) := by
  rw [← List.length_drop]
  cases ha with
  | @ahead s left beyond sized =>
    rw [← left]
    exact ⟨s.hint_le, fun hs => (sized hs).1⟩
  | @looked s v left beyond sized =>
    rw [← left, List.length_cons]
    refine ⟨(min_le_left _ _).trans (Nat.succ_le_succ s.hint_le), fun hs => ?_⟩
    obtain ⟨hhint, _⟩ := sized hs
    have hlt : (whole.toList.drop got).length < 2 ^ 64 :=
      lt_of_le_of_lt (by rw [List.length_drop]; exact Nat.sub_le _ _) hs.2
    rw [← left, List.length_cons] at hlt
    simp only [Adapter.hint, hhint, Nat.pow_eq]
    omega
  | ended left =>
    rw [left]
    exact ⟨le_rfl, fun _ => rfl⟩

theorem drop_eq_cons {α : Type} {xs ys : List α} {n : Nat} {x : α} (h : x :: ys = xs.drop n) :
    xs[n]? = some x ∧ xs.drop (n + 1) = ys := by
  constructor
  · rw [← List.head?_drop, ← h]
    rfl
  · rw [← List.tail_drop, ← h]
    rfl

/-- An item that is left is looked at first, if it was not before, and then offered. -/
theorem Over.step_eq {v : t.Value} (ha : Over code whole got a)
    (hv : whole.toList[got]? = some v) :
    ∃ s : Source t, Over code whole got ⟨t, code, s, some (some v), got⟩ ∧
      Over code whole (got + 1) ⟨t, code, s, none, got + 1⟩ ∧
      (∀ (env : Env U) (w : World U), w.pending = none →
        a.step env w = (⟨t, code, s, some (some v), got⟩ : Adapter).step env w) ∧
      (↑a.units : Multiset Handle) = ↑(t.units v) + ↑s.units := by
  cases ha with
  | @ahead s left beyond sized =>
    cases hn : s.next? with
    | none =>
      rw [← List.head?_drop, ← left, Source.next?_none hn] at hv
      cases hv
    | some r =>
      obtain ⟨x, rest⟩ := r
      obtain ⟨hlist, hbeyond⟩ := Source.next?_some hn
      rw [hlist] at left
      rw [hbeyond] at beyond
      have hrest : whole.Sized → rest.Sized := fun hs => (sized hs).next? hn
      obtain ⟨hx, hdrop⟩ := drop_eq_cons left
      cases hx.symm.trans hv
      refine ⟨rest, .looked left beyond hrest, .ahead hdrop.symm beyond hrest, ?_, ?_⟩
      · intro env w clear
        simp only [step, bind_run, Indicator.isSet, clear, Option.isSome_none, peek, hn,
          Bool.false_eq_true, if_false]
      · simp only [units, Source.next?_units hn, coe_append, Multiset.coe_nil, add_zero]
  | @looked s x left beyond sized =>
    obtain ⟨hx, hdrop⟩ := drop_eq_cons left
    cases hx.symm.trans hv
    refine ⟨s, .looked left beyond sized, .ahead hdrop.symm beyond sized, fun _ _ _ => rfl, ?_⟩
    simp only [units, coe_append, add_comm]
  | ended left =>
    rw [← List.head?_drop, left] at hv
    cases hv

theorem Over.step_end (ha : Over code whole got a) (hend : whole.toList.drop got = [])
    {w : World U} (clear : w.pending = none) :
    ∃ b, Over code whole got b ∧ b.units = [] ∧ ∀ env : Env U,
      a.step env w =
        .done (b, none) { w with client := env.observe (.sequenceEnded got) w.client } := by
  refine ⟨⟨t, code, .spent, some none, got⟩, .ended hend, rfl, fun env => ?_⟩
  cases ha with
  | @ahead s left beyond sized =>
    rw [hend] at left
    have hunits : s.units = [] := by rw [s.units_eq, left, beyond]; rfl
    cases hn : s.next? with
    | some r =>
      rw [(Source.next?_some hn).1] at left
      cases left
    | none =>
      simp [step, bind_run, Indicator.isSet, clear, peek, hn, hunits, holding, onFault, releaseAll,
        pure_run, Act.emit]
  | looked left _ _ =>
    rw [hend] at left
    cases left
  | ended _ =>
    simp [step, bind_run, Indicator.isSet, clear, peek, holding, onFault, releaseAll, pure_run,
      Act.emit]

end Adapter

def Payload.away : Payload := .native .adapter Option.none

/-- User code as an adapter meets it: where it is entered the object is kept by someone and its
state is away, and it leaves the object so. -/
structure Env.Serves (O : Ownership U) (astray : Prop) (h : Handle) (code : Option CodeId)
    (t : NativeType) (env : Env U) : Prop where
  lawful : env.Lawful O
  spares : env.Spares O h .away
  release : ∀ k w, Ready O .strict {k} w → (env.release k w).Settles astray fun _ _ => True
  convert : ∀ v E w, h ∈ E → Exact O E w → w.pending = none → w.heap.payload? h = some .away →
    (convertOut code t v env w).Settles astray fun _ _ => True

/-- One item is offered to the converter, in the world `w`. If it converts, and leaves the indicator
clear, the result is handed over; otherwise a type error takes the place of whatever was raised. -/
inductive Offered (env : Env U) (code : Option CodeId) {t : NativeType} (v : t.Value) (w : World U) :
    Option Handle → World U → Prop where
  | handed {k : Handle} {w₁ w' : World U} (converted : convertOut code t v env w = .done (some k) w₁)
      (clear : w₁.pending = none) : Offered env code v w (some k) w'
  | refused {out : Option Handle} {w₁ w' : World U}
      (converted : convertOut code t v env w = .done out w₁) (fails : out = none ∨ w₁.pending ≠ none)
      (pending : w'.pending = some ⟨.typeError, "bad element in iterable"⟩) :
      Offered env code v w none w'

theorem Offered.of_pending {env : Env U} {code : Option CodeId} {t : NativeType} {v : t.Value}
    {w w₁ w₂ : World U} {out : Option Handle} (ho : Offered env code v w out w₁)
    (hpending : w₂.pending = w₁.pending) : Offered env code v w out w₂ := by
  cases ho with
  | handed converted clear => exact .handed converted clear
  | refused converted fails pending => exact .refused converted fails (hpending.trans pending)

section

variable {O : Ownership U} {astray : Prop} {h : Handle} {code : Option CodeId} {t : NativeType}
  {env : Env U} {E : Multiset Handle} {w : World U}

namespace Env.Serves

theorem releaseAll_settles (hs : env.Serves O astray h code t) (units : List Handle) (hE : h ∈ E)
    (hx : Exact O (↑units + E) w) (away : w.heap.payload? h = some .away) :
    (releaseAll units env w).Settles astray fun _ w' =>
      Exact O E w' ∧ w'.heap.payload? h = some .away := by
  suffices hrule : (releaseAll units env w).Settles astray fun _ w' =>
      Exact O (↑([] : List Handle) + E) w' ∧ w'.heap.payload? h = some .away from
    hrule.mono fun _ w' _ h => ⟨by simpa using h.1, h.2⟩
  refine releaseAll_rule (I := fun ks w' => Exact O (↑ks + E) w' ∧ w'.heap.payload? h = some .away)
    (fun k ks w' hw' => ?_) units ⟨hx, away⟩
  · obtain ⟨hx', away'⟩ := hw'
    rw [coe_cons, add_assoc] at hx'
    have hguards := release_guards hs.lawful hs.spares k (↑ks + E) w'
      (Multiset.mem_add.2 (.inr hE)) hx' away'
    refine ((hs.release k w' (hx'.ready.of_frame _)).also hguards).mono fun _ w'' _ h => ?_
    exact ⟨by simpa using h.2.1, h.2.2⟩

theorem convert_settles (hs : env.Serves O astray h code t) (v : t.Value) (hE : h ∈ E)
    (hx : Exact O E w) (clear : w.pending = none) (away : w.heap.payload? h = some .away) :
    (convertOut code t v env w).Settles astray fun o w' =>
      Exact O (↑o.toList + E) w' ∧ w'.heap.payload? h = some .away := by
  have hguards := convertOut_guards hs.lawful hs.spares code t v E w hE (by rwa [zero_add]) away
  exact ((hs.convert v E w hE hx clear away).also hguards).mono fun _ _ _ h => h.2

end Env.Serves

namespace Adapter

variable {whole : Source t} {got : Nat} {a : Adapter}

/-- An item that did not convert: its remains are given back, and a type error is all there is. -/
theorem refuse_settles (hs : env.Serves O astray h code t) (out : Option Handle) (n : Nat)
    (hE : h ∈ E) (hx : Exact O (↑out.toList + E) w) (away : w.heap.payload? h = some .away) :
    ((do
      releaseAll out.toList
      Indicator.clear
      Act.emit (.conversionFailed .element n)
      raiseType "bad element in iterable" : Act U Unit) env w).Settles astray fun _ w' =>
        w'.pending = some ⟨.typeError, "bad element in iterable"⟩ ∧
          w'.heap.payload? h = some .away := by
  refine (hs.releaseAll_settles out.toList hE hx away).bind fun _ w₁ _ h₁ => ?_
  obtain ⟨w₂, hclear, hnone, hheap⟩ := clear_run env w₁
  let w₃ : World U := { w₂ with client := env.observe (.conversionFailed .element n) w₂.client }
  obtain ⟨w₄, hraise, hpending, hheap'⟩ := raise_run (w := w₃) .typeError "bad element in iterable"
    env hnone
  have hr : (do
      Indicator.clear
      Act.emit (.conversionFailed .element n)
      raiseType "bad element in iterable" : Act U Unit) env w₁ = .done () w₄ := by
    rw [bind_run, hclear]
    exact hraise
  rw [hr]
  exact ⟨hpending, by rw [hheap', hheap, h₁.2]⟩

/-- The item at the index is offered, and the adapter moves on if it is handed over. -/
theorem Over.step_settles {v : t.Value} (hs : env.Serves O astray h code t)
    (ha : Over code whole got a) (hv : whole.toList[got]? = some v) (hE : h ∈ E)
    (hx : Exact O (↑a.units + E) w) (clear : w.pending = none)
    (away : w.heap.payload? h = some .away) :
    (a.step env w).Settles astray fun r w' => Offered env code v w r.2 w' ∧
      Over code whole (got + r.2.toList.length) r.1 ∧ w'.heap.payload? h = some .away := by
  obtain ⟨s, hlooked, hnext, hstep, hunits⟩ := ha.step_eq (U := U) hv
  rw [hstep env w clear]
  rw [hunits, add_assoc] at hx
  have hE' : h ∈ (↑(t.units v) : Multiset Handle) + (↑s.units + E) := by simp [hE]
  have hconvert := holding_settles
    (⟨t, code, s, some (some v), got⟩ : Adapter).units (hs.convert_settles v hE' hx clear away)
  unfold step
  rw [bind_run]
  simp only [Indicator.isSet, clear, Option.isSome_none, peek, Bool.false_eq_true, if_false]
  refine hconvert.bind fun out w₁ _ hout => ?_
  obtain ⟨converted, hx₁, away₁⟩ := hout
  have hrefuse := holding_settles (⟨t, code, s, some (some v), got⟩ : Adapter).units
    (refuse_settles hs out got hE' hx₁ away₁)
  have hrefused (fails : out = none ∨ w₁.pending ≠ none) :
      ((do
        holding (⟨t, code, s, some (some v), got⟩ : Adapter).units do
          releaseAll out.toList
          Indicator.clear
          Act.emit (.conversionFailed .element got)
          raiseType "bad element in iterable"
        pure (⟨t, code, s, some (some v), got⟩, none) : Act U (Adapter × Option Handle))
          env w₁).Settles astray fun r w' => Offered env code v w r.2 w' ∧
            Over code whole (got + r.2.toList.length) r.1 ∧ w'.heap.payload? h = some .away :=
    hrefuse.bind fun _ w₂ _ h₂ => ⟨.refused converted fails h₂.2.1, hlooked, h₂.2.2⟩
  rw [bind_run]
  simp only [Indicator.isSet]
  cases hpending : w₁.pending with
  | some e => cases out <;> exact hrefused (.inr (by simp [hpending]))
  | none =>
    cases out with
    | none => exact hrefused (.inl rfl)
    | some k =>
      have hheld := hx₁
      rw [add_left_comm] at hheld
      have hE₁ : h ∈ (↑(some k).toList : Multiset Handle) + (↑s.units + E) := by simp [hE]
      have hrelease := hs.releaseAll_settles (t.units v) hE₁ hheld away₁
      exact (holding_settles _ hrelease).bind fun _ w₂ _ h₂ =>
        ⟨.handed converted hpending, hnext, h₂.2.2⟩

end Adapter

theorem putStateBack_waiting {obj : Handle} {d : Descriptor} (s : NativeState)
    (waits : w.heap.payload? obj = some (.native d none)) :
    putStateBack obj s env w =
      .done true { w with heap := w.heap.setPayload obj (.native d (some s)) } := by
  simp [putStateBack, bind_run, Act.heap, waits, Act.setPayload, updateHeap, pure_run]

theorem withState_done {obj : Handle} (kind : StateKind) {units : α → List Handle}
    {f : kind.State → Act U (kind.State × α)} {d : Descriptor} {s : NativeState}
    {typed typed' : kind.State} {a : α} {w₁ : World U}
    (found : w.heap.payload? obj = some (.native d (some s))) (hs : s.get? kind = some typed)
    (run : f typed env { w with heap := w.heap.setPayload obj (.native d none) } =
      .done (typed', a) w₁)
    (waits : w₁.heap.payload? obj = some (.native d none)) :
    withState obj kind units f env w =
      .done (some a)
        { w₁ with heap := w₁.heap.setPayload obj (.native d (some (.of kind typed'))) } := by
  simp [withState, bind_run, Act.heap, found, Act.setPayload, updateHeap, hs, run,
    putStateBack_waiting _ waits, pure_run]

theorem withState_settles {obj : Handle} (kind : StateKind) (units : α → List Handle)
    {f : kind.State → Act U (kind.State × α)} {d : Descriptor} {s : NativeState}
    {typed : kind.State} {P : kind.State × α → World U → Prop}
    (found : w.heap.payload? obj = some (.native d (some s))) (hs : s.get? kind = some typed)
    (run : (f typed env { w with heap := w.heap.setPayload obj (.native d none) }).Settles astray
      fun r w' => P r w' ∧ w'.heap.payload? obj = some (.native d none)) :
    (withState obj kind units f env w).Settles astray fun o w' =>
      ∃ r w₁, P r w₁ ∧ w₁.heap.payload? obj = some (.native d none) ∧ o = some r.2 ∧
        w' = { w₁ with heap := w₁.heap.setPayload obj (.native d (some (.of kind r.1))) } := by
  cases hr : f typed env { w with heap := w.heap.setPayload obj (.native d none) } with
  | done r w₁ =>
    rw [hr] at run
    rw [withState_done kind found hs hr run.2]
    exact ⟨r, w₁, run.1, run.2, rfl, rfl⟩
  | fault c w₁ =>
    rw [hr] at run
    have hfault : withState obj kind units f env w = .fault c w₁ := by
      simp [withState, bind_run, Act.heap, found, Act.setPayload, updateHeap, hs, hr]
    rw [hfault]
    exact run
  | unfinished =>
    rw [hr] at run
    have hlost : withState obj kind units f env w = .unfinished := by
      simp [withState, bind_run, Act.heap, found, Act.setPayload, updateHeap, hs, hr]
    rw [hlost]
    exact run

def World.lending (h : Handle) (w : World U) : World U :=
  { w with heap := w.heap.setPayload h .away }

theorem iterNext_done {a : Adapter} {out : Option Handle} {w' : World U}
    (found : w.heap.payload? h = some (.native .adapter (some (.adapter a))))
    (run : withState h .adapter Option.toList Adapter.step env w = .done (some out) w')
    (plain : out = none → w'.pending.any (·.kind == .stopIteration) = false) :
    iterNext h env w = .done out w' := by
  cases out with
  | some k =>
    simp [iterNext, bind_run, Act.heap, found, Descriptor.adapter, runNextSlot, run, pure_run]
  | none =>
    simp [iterNext, bind_run, Act.heap, found, Descriptor.adapter, runNextSlot, run, pure_run,
      Indicator.holds, plain rfl]

theorem iterNext_settles {a : Adapter} {P : Option Handle → World U → Prop}
    (found : w.heap.payload? h = some (.native .adapter (some (.adapter a))))
    (run : (withState h .adapter Option.toList Adapter.step env w).Settles astray fun o w' =>
      ∃ out, o = some out ∧ P out w' ∧
        (out = none → w'.pending.any (·.kind == .stopIteration) = false)) :
    (iterNext h env w).Settles astray P := by
  have hnext : iterNext h env w = (do
      let found := (← withState h .adapter Option.toList Adapter.step).bind id
      if found.isNone then
        if ← Indicator.holds .stopIteration then Indicator.clear
      pure found : Act U (Option Handle)) env w := by
    simp only [iterNext, bind_run, Act.heap, found, Descriptor.adapter, runNextSlot]
    cases withState h .adapter Option.toList Adapter.step env w <;> rfl
  cases hr : withState h .adapter Option.toList Adapter.step env w with
  | done o w' =>
    rw [hr] at run
    obtain ⟨out, rfl, hP, plain⟩ := run
    rw [iterNext_done found hr plain]
    exact hP
  | fault c w' =>
    rw [hr] at run
    rw [hnext, bind_run, hr]
    exact run
  | unfinished =>
    rw [hr] at run
    rw [hnext, bind_run, hr]
    exact run

structure Drained (O : Ownership U) (h : Handle) (code : Option CodeId) (whole : Source t)
    (got : Nat) (w : World U) : Prop where
  adapter : ∃ a, w.heap.payload? h = some (.native .adapter (some (.adapter a))) ∧
    Adapter.Over code whole got a
  kept : ∃ E, h ∈ E ∧ Exact O E w

namespace Drained

variable {whole : Source t} {got : Nat}

theorem lending {a : Adapter} (hx : Exact O E w)
    (found : w.heap.payload? h = some (.native .adapter (some (.adapter a)))) :
    Exact O (↑a.units + E) (w.lending h) ∧ (w.lending h).heap.payload? h = some .away := by
  refine ⟨?_, (Heap.setPayload_payload? found _ h).trans (if_pos rfl)⟩
  have m : Move O .strict (E, w) (↑a.units + E, w.lending h) :=
    .change found (.state .adapter _ none)
      (by simp [Payload.units, Payload.away, NativeState.units, add_comm])
  exact m.exact hx

theorem iterNext_item {v : t.Value} (hs : env.Serves O astray h code t)
    (hd : Drained O h code whole got w) (hv : whole.toList[got]? = some v)
    (clear : w.pending = none) :
    (iterNext h env w).Settles astray fun out w' =>
      Offered env code v (w.lending h) out w' ∧
        Drained O h code whole (got + out.toList.length) w' := by
  obtain ⟨⟨a, found, ha⟩, E, hE, hx⟩ := hd
  obtain ⟨hlent, away⟩ := lending hx found
  have hstep := ha.step_settles hs hv hE hlent clear away
  have hstate := withState_settles .adapter Option.toList found rfl
    (P := fun r w' => Offered env code v (w.lending h) r.2 w' ∧
      Adapter.Over code whole (got + r.2.toList.length) r.1)
    (hstep.mono fun r w' _ h => ⟨⟨h.1, h.2.1⟩, h.2.2⟩)
  have hnext := iterNext_settles found (P := fun out w' => Offered env code v (w.lending h) out w' ∧
    ∃ b, w'.heap.payload? h = some (.native .adapter (some (.adapter b))) ∧
      Adapter.Over code whole (got + out.toList.length) b) (hstate.mono ?_)
  · refine (hnext.conserved (iterNext_conserves h env hs.lawful w hx.idle)).mono fun out w' _ h => ?_
    obtain ⟨⟨hoffered, hadapter⟩, hpath⟩ := h
    exact ⟨hoffered, hadapter, _, Multiset.mem_add.2 (.inr hE), hpath.exact_join hx⟩
  · rintro o w' - ⟨r, w₁, ⟨hoffered, hover⟩, waits, rfl, rfl⟩
    refine ⟨r.2, rfl, ⟨hoffered.of_pending rfl, r.1, ?_, hover⟩, fun hnone => ?_⟩
    · exact (Heap.setPayload_payload? waits _ h).trans (if_pos rfl)
    · rw [hnone] at hoffered
      cases hoffered with
      | refused _ _ pending => simp [pending]

theorem iterNext_end (hd : Drained O h code whole got w) (hend : whole.toList.length ≤ got)
    (henv : env.Lawful O) (clear : w.pending = none) :
    ∃ w', w'.pending = none ∧ Drained O h code whole got w' ∧
      ∀ env' : Env U, env'.observe = env.observe → iterNext h env' w = .done none w' := by
  obtain ⟨⟨a, found, ha⟩, E, hE, hx⟩ := hd
  obtain ⟨b, hb, _, hstep⟩ := ha.step_end (w := w.lending h) (List.drop_eq_nil_of_le hend) clear
  let w₁ : World U :=
    { w.lending h with client := env.observe (.sequenceEnded got) w.client }
  have waits : w₁.heap.payload? h = some .away := (lending hx found).2
  have hrun : ∀ env' : Env U, env'.observe = env.observe → iterNext h env' w =
      .done none { w₁ with heap := w₁.heap.setPayload h (.native .adapter (some (.adapter b))) } := by
    intro env' hobserve
    have hstep' : a.step env' (w.lending h) = .done (b, none) w₁ := by rw [hstep env', hobserve]; rfl
    have hstate : withState h .adapter Option.toList Adapter.step env' w = _ :=
      withState_done .adapter found rfl hstep' waits
    exact iterNext_done found hstate fun _ => by simp [w₁, World.lending, clear]
  refine ⟨{ w₁ with heap := w₁.heap.setPayload h (.native .adapter (some (.adapter b))) }, clear,
    ⟨⟨b, ?_, hb⟩, E, hE, ?_⟩, hrun⟩
  · exact (Heap.setPayload_payload? waits _ h).trans (if_pos rfl)
  · have hout := iterNext_conserves (O := O) (d := .strict) h env henv w hx.idle
    rw [hrun env rfl] at hout
    exact hout.1.exact_aside hx

theorem getIter_run (hd : Drained O h code whole got w) (henv : env.Lawful O) :
    ∃ w', getIter h env w = .done (some h) w' ∧ Drained O h code whole got w' := by
  obtain ⟨⟨a, found, ha⟩, E, hE, hx⟩ := hd
  obtain ⟨w', hacquire, _, hkept⟩ := acquire_run env (hx.isAlive (h := h) (by simp [hE]))
  have hrun : getIter h env w = .done (some h) w' := by
    simp only [getIter, bind_run, Act.heap, found, Descriptor.adapter, runIterSlot]
    change (acquire h >>= fun k => pure (some k)) env w = _
    rw [bind_run, hacquire]
    rfl
  have hout := getIter_conserves (O := O) (d := .strict) h env henv w hx.idle
  rw [hrun] at hout
  exact ⟨w', hrun, ⟨a, by rw [hkept, found], ha⟩, _, Multiset.mem_add.2 (.inr hE),
    hout.1.exact_join hx⟩

/-- Asking how many are left moves nothing, and leaves the indicator as it was. -/
theorem lengthHint_run (hd : Drained O h code whole got w) (henv : env.Lawful O) :
    ∃ n w', lengthHint h env w = .done (some n) w' ∧ Drained O h code whole got w' ∧
      w'.pending = w.pending ∧ n ≤ whole.toList.length - got ∧
      (whole.Sized → n = whole.toList.length - got) := by
  obtain ⟨⟨a, found, ha⟩, E, hE, hx⟩ := hd
  let w₀ : World U := { w with pending := none }
  let w₁ : World U := { w₀ with
    heap := (w₀.lending h).heap.setPayload h (.native .adapter (some (.adapter a))) }
  have waits : (w₀.lending h).heap.payload? h = some .away := (lending hx found).2
  have hstate : withState h .adapter (fun _ => []) (fun a : Adapter => pure (a, a.hint))
        env { w with pending := none } = .done (some a.hint) w₁ :=
    withState_done .adapter found rfl rfl waits
  obtain ⟨w₂, hclear, hnone, hheap₂⟩ := clear_run env w₁
  obtain ⟨w₃, hback, hpending, hheap₃⟩ := putBack_run w.pending env hnone
  have hrun : lengthHint h env w = .done (some a.hint) w₃ := by
    simp only [lengthHint, bind_run, Act.heap, found, Descriptor.adapter, Indicator.take,
      Indicator.swap, runHintSlot, hstate, hclear, hback, pure_run]
  have hout := lengthHint_conserves (O := O) (d := .strict) h env henv w hx.idle
  rw [hrun] at hout
  refine ⟨_, w₃, hrun, ⟨⟨a, ?_, ha⟩, E, hE, hout.1.exact_aside hx⟩, hpending, ha.hint⟩
  rw [hheap₃, hheap₂]
  exact (Heap.setPayload_payload? waits _ h).trans (if_pos rfl)

end Drained

/-- A run of calls on the object, whatever happens in between that leaves its state in place. The
items handed over are counted; a next item is asked for with the indicator clear. -/
inductive Drawn (O : Ownership U) (env : Env U) (h : Handle) (begun : World U) :
    Nat → World U → Prop where
  | begun : Drawn O env h begun 0 begun
  | aside {got : Nat} {w w' : World U} (drawn : Drawn O env h begun got w)
      (same : w'.heap.payload? h = w.heap.payload? h) (kept : ∃ E, h ∈ E ∧ Exact O E w') :
      Drawn O env h begun got w'
  | next {got : Nat} {w w' : World U} {out : Option Handle} (drawn : Drawn O env h begun got w)
      (clear : w.pending = none) (run : iterNext h env w = .done out w') :
      Drawn O env h begun (got + out.toList.length) w'
  | iter {got : Nat} {w w' : World U} {out : Option Handle} (drawn : Drawn O env h begun got w)
      (run : getIter h env w = .done out w') : Drawn O env h begun got w'
  | hint {got : Nat} {w w' : World U} {out : Option Nat} (drawn : Drawn O env h begun got w)
      (run : lengthHint h env w = .done out w') : Drawn O env h begun got w'

theorem Drawn.drained {whole : Source t} {begun : World U} {got : Nat}
    (hs : env.Serves O astray h code t) (hbegun : Drained O h code whole 0 begun)
    (drawn : Drawn O env h begun got w) :
    Drained O h code whole got w ∧ got ≤ whole.toList.length := by
  induction drawn with
  | begun => exact ⟨hbegun, Nat.zero_le _⟩
  | aside _ same kept ih =>
    obtain ⟨⟨a, found, ha⟩, _⟩ := ih.1
    exact ⟨⟨⟨a, same.trans found, ha⟩, kept⟩, ih.2⟩
  | @next got w w' out _ clear run ih =>
    obtain ⟨hd, hle⟩ := ih
    cases hv : whole.toList[got]? with
    | some v =>
      have hnext := hd.iterNext_item hs hv clear
      rw [run] at hnext
      have hlt := (List.getElem?_eq_some_iff.1 hv).1
      refine ⟨hnext.2, ?_⟩
      cases out with
      | none => exact hle
      | some k => exact hlt
    | none =>
      obtain ⟨w₁, _, hd', hrun⟩ :=
        hd.iterNext_end (List.getElem?_eq_none_iff.1 hv) hs.lawful clear
      obtain ⟨⟩ := run.symm.trans (hrun env rfl)
      exact ⟨hd', hle⟩
  | iter _ run ih =>
    obtain ⟨w₁, hrun, hd⟩ := ih.1.getIter_run hs.lawful
    obtain ⟨⟩ := run.symm.trans hrun
    exact ⟨hd, ih.2⟩
  | hint _ run ih =>
    obtain ⟨n, w₁, hrun, hd, _⟩ := ih.1.lengthHint_run hs.lawful
    obtain ⟨⟩ := run.symm.trans hrun
    exact ⟨hd, ih.2⟩

/-- Whatever conversions fail, the items come in order, each until it is handed over, and after the
last one nothing is asked of the converter any more. -/
theorem draining_loses_nothing {whole : Source t} {begun : World U} {got : Nat}
    (hs : env.Serves O astray h code t) (beyond : whole.beyond.flatMap t.units = [])
    (start : begun.heap.payload? h = some (.native .adapter (some (.adapter (.start whole code)))))
    (hE : h ∈ E) (exact : Exact O E begun) (drawn : Drawn O env h begun got w) :
    got ≤ whole.toList.length ∧
    (w.pending = none → ∀ v, whole.toList[got]? = some v → (iterNext h env w).Settles astray
      fun out w' => Offered env code v (w.lending h) out w') ∧
    (w.pending = none → got = whole.toList.length → ∃ w', w'.pending = none ∧
      ∀ env' : Env U, env'.observe = env.observe → iterNext h env' w = .done none w') ∧
    (∃ w', getIter h env w = .done (some h) w') ∧
    ∃ n w', lengthHint h env w = .done (some n) w' ∧ w'.pending = w.pending ∧
      n ≤ whole.toList.length - got ∧ (whole.Sized → n = whole.toList.length - got) := by
  have hbegun : Drained O h code whole 0 begun := ⟨⟨_, start, .start beyond⟩, E, hE, exact⟩
  obtain ⟨hd, hle⟩ := drawn.drained hs hbegun
  refine ⟨hle, fun clear v hv => ?_, fun clear hgot => ?_, ?_, ?_⟩
  · exact (hd.iterNext_item hs hv clear).mono fun _ _ _ h => h.1
  · obtain ⟨w', hclear, _, hrun⟩ := hd.iterNext_end hgot.ge hs.lawful clear
    exact ⟨w', hclear, hrun⟩
  · obtain ⟨w', hrun, _⟩ := hd.getIter_run hs.lawful
    exact ⟨w', hrun⟩
  · obtain ⟨n, w', hrun, _, hpending, hhint⟩ := hd.lengthHint_run hs.lawful
    exact ⟨n, w', hrun, hpending, hhint⟩

end

/-- The first time it is called, the converter asks the adapter that it works for. -/
def impatientHooks (env : Env Nat) : Hooks Nat where
  call := fun _ _ w => .done none w
  slot := fun _ _ w => .done none w
  measure := fun _ _ w => .done none w
  destroy := fun _ hs w => releaseAll hs env w
  toPeer := fun _ t v w =>
    (do
      let count ← Act.client
      Act.modifyClient (· + 1)
      if count = 0 then iterNext ⟨0, 0⟩ else toPeer t v :
      Act Nat (Option Handle)) env w

def impatient : Env Nat := .ample (fun _ n => n) impatientHooks 1

def impatientItems : Source .i64 := .listed [(7 : Int64), (8 : Int64)] true

def impatientWorld : World Nat where
  heap := (Heap.empty.insert (.native .adapter (some (.adapter (.start impatientItems (some 0)))))).2
  pending := none
  settings := {}
  client := 0

theorem impatientHooks_lawful {env : Env Nat} (henv : env.Lawful .blank) :
    (impatientHooks env).Lawful .blank where
  call := fun _ _ _ _ _ => ⟨.refl, rfl⟩
  slot := fun _ _ _ _ _ => ⟨.refl, rfl⟩
  measure := fun _ _ _ _ _ => ⟨.refl, rfl⟩
  destroy := fun _ _ hs w hw => releaseAll_conserves hs env henv w hw
  toPeer := fun d _ t v w hw => by
    have hconvert : Conserves .blank d 0 (do
        let count ← Act.client
        Act.modifyClient (· + 1)
        if count = 0 then iterNext ⟨0, 0⟩ else toPeer t v : Act Nat (Option Handle))
        fun o => ↑o.toList := by
      refine .ask .client fun count => .aside ?_ fun _ => ?_
      · exact .of_heap_eq fun _ _ w => ⟨(), _, rfl, rfl, rfl, rfl, fun _ h => h⟩
      · split
        · exact iterNext_conserves _
        · exact toPeer_conserves t v
    exact hconvert env henv w hw

theorem impatientTie_lawful (n : Nat) : (Env.tie (fun _ u => u) impatientHooks n).Lawful .blank :=
  tie_lawful (fun _ _ => rfl) (fun _ _ => rfl) (fun _ _ h => h) (fun _ => impatientHooks_lawful) n

theorem iterNext_away {U : Type} {h : Handle} {env : Env U} {w : World U}
    (away : w.heap.payload? h = some .away) :
    iterNext h env w = (do
      raise .runtimeError s!"{Descriptor.adapter.name} already executing"
      if ← Indicator.holds .stopIteration then Indicator.clear
      pure none : Act U (Option Handle)) env w := by
  simp only [iterNext, bind_run, Act.heap, away, Payload.away, Descriptor.adapter, runNextSlot,
    withState]
  generalize raise .runtimeError _ env w = r
  cases r <;> rfl

theorem impatientHooks_spares {env : Env Nat} (henv : env.Lawful .blank)
    (hspares : env.Spares .blank ⟨0, 0⟩ .away) : (impatientHooks env).Spares .blank ⟨0, 0⟩ .away where
  call := fun _ _ _ _ _ _ => id
  slot := fun _ _ _ _ _ _ => id
  measure := fun _ _ _ _ _ _ => id
  destroy := fun _ hs E w hE hx away =>
    (releaseAll_guards henv hspares hs E w hE hx away).mono fun _ _ _ h => h.2
  toPeer := fun _ t v E w hE hx away => by
    let w₁ : World Nat := { w with client := w.client + 1 }
    have hx₁ : Exact .blank (0 + E) w₁ := by
      rw [zero_add]
      exact ⟨hx.inOrder, hx.counted, hx.sound⟩
    change ((if w.client = 0 then iterNext ⟨0, 0⟩ else toPeer t v : Act Nat (Option Handle))
      env w₁).Settles True _
    split
    · rw [iterNext_away (w := w₁) away]
      have hstill : (do
          raise .runtimeError s!"{Descriptor.adapter.name} already executing"
          if ← Indicator.holds .stopIteration then Indicator.clear
          pure none : Act Nat (Option Handle)).Still := by
        refine .bind (.raise _ _) fun _ =>
          .bind (fun _ _ => rfl : (Indicator.holds .stopIteration : Act Nat Bool).Still) fun b => ?_
        cases b with
        | true => exact .bind .clear fun _ => .pure none
        | false => exact .pure none
      exact (hstill env w₁).mono fun _ _ _ h => h ▸ away
    · exact (toPeer_guards henv hspares t v E w₁ hE hx₁ away).mono fun _ _ _ h => h.2

theorem impatient_serves :
    impatient.Serves .blank False ⟨0, 0⟩ (some 0) .i64 where
  lawful := Env.ample_lawful impatientTie_lawful fun _ => impatientHooks_lawful
  spares := Env.ample_spares impatientTie_lawful fun _ => impatientHooks_spares
  release := fun k w ready => by
    have hfrees : impatient.Frees .blank w.heap.stats.live :=
      Env.ample_frees impatientTie_lawful (fun env n henv hf _ hs w ready hlive =>
        releaseAll_frees henv hf hs ready hlive) _
    exact (hfrees k w ready le_rfl).mono fun _ _ _ _ => trivial
  convert := fun v E w _ _ clear away => by
    let w₁ : World Nat := { w with client := w.client + 1 }
    let env : Env Nat := .tie (fun _ n => n) impatientHooks (2 * w.heap.stats.live + 1)
    change ((if w.client = 0 then iterNext ⟨0, 0⟩ else toPeer .i64 v : Act Nat (Option Handle))
      env w₁).Settles False _
    split
    · rw [iterNext_away (w := w₁) away]
      obtain ⟨w₂, hraise, hpending, _⟩ := raise_run (w := w₁) .runtimeError
        s!"{Descriptor.adapter.name} already executing" env clear
      rw [bind_run, hraise]
      simp [bind_run, Indicator.holds, hpending, pure_run, Outcome.Settles]
    · obtain ⟨w₂, hrun, _⟩ := alloc_run (.int v) env w₁
      change ((alloc (.int v) >>= fun k => pure (some k)) env w₁).Settles _ _
      rw [bind_run, hrun]
      trivial

theorem impatientWorld_exact : Exact .blank {⟨0, 0⟩} impatientWorld := by
  have hempty : Exact .blank 0 { impatientWorld with heap := .empty } :=
    ⟨Heap.empty_inOrder, fun _ => rfl, trivial⟩
  have m : Move .blank .strict (0 + 0, { impatientWorld with heap := .empty })
      ({⟨0, 0⟩} + 0, impatientWorld) := .insert 0 { impatientWorld with heap := .empty }
      (.native .adapter (some (.adapter (.start impatientItems (some 0)))))
  have hx := m.exact (by rwa [zero_add])
  rwa [add_zero] at hx

def askTwice : Act Nat (Option Handle × Option Handle) := do
  let first ← iterNext ⟨0, 0⟩
  let _ ← Indicator.swap none
  let second ← iterNext ⟨0, 0⟩
  pure (first, second)

theorem askTwice_impatient :
    (askTwice impatient impatientWorld).answer? = some (none, some ⟨1, 0⟩) := by
  decide +kernel

theorem draining_loses_nothing_impatient :
    ∃ w₁ w₂, iterNext ⟨0, 0⟩ impatient impatientWorld = .done none w₁ ∧
      w₁.pending = some ⟨.typeError, "bad element in iterable"⟩ ∧
      iterNext ⟨0, 0⟩ impatient { w₁ with pending := none } = .done (some ⟨1, 0⟩) w₂ ∧
      Offered impatient (some 0) (t := .i64) (7 : Int64)
        (World.lending ⟨0, 0⟩ { w₁ with pending := none }) (some ⟨1, 0⟩) w₂ ∧
      ∃ w₃, lengthHint ⟨0, 0⟩ impatient w₂ = .done (some 1) w₃ := by
  have start : impatientWorld.heap.payload? ⟨0, 0⟩ =
      some (.native .adapter (some (.adapter (.start impatientItems (some 0))))) := rfl
  have hkept : (⟨0, 0⟩ : Handle) ∈ ({⟨0, 0⟩} : Multiset Handle) := Multiset.mem_singleton_self _
  obtain ⟨w₂, hrun⟩ := Outcome.answer?_eq_some.1 askTwice_impatient
  obtain ⟨first, w₁, hfirst, hrest⟩ := bind_eq_done.1 hrun
  obtain ⟨_, _, ⟨⟩, hrest⟩ := bind_eq_done.1 hrest
  obtain ⟨second, _, hsecond, ⟨⟩⟩ := bind_eq_done.1 hrest
  have hdrawn : Drawn .blank impatient ⟨0, 0⟩ impatientWorld 0 w₁ := .next .begun rfl hfirst
  have hbegun : Drained .blank ⟨0, 0⟩ (some 0) impatientItems 0 impatientWorld :=
    ⟨⟨_, start, .start rfl⟩, _, hkept, impatientWorld_exact⟩
  obtain ⟨E, hE, hx⟩ := (hdrawn.drained impatient_serves hbegun).1.kept
  have hcleared : Drawn .blank impatient ⟨0, 0⟩ impatientWorld 0 { w₁ with pending := none } :=
    hdrawn.aside rfl ⟨E, hE, hx.inOrder, hx.counted, hx.sound⟩
  have hafter : Drawn .blank impatient ⟨0, 0⟩ impatientWorld 1 w₂ := hcleared.next rfl hsecond
  obtain ⟨-, hoffer, -⟩ := draining_loses_nothing impatient_serves rfl start hkept
    impatientWorld_exact .begun
  obtain ⟨-, hagain, -⟩ := draining_loses_nothing impatient_serves rfl start hkept
    impatientWorld_exact hcleared
  obtain ⟨-, -, -, -, n, w₃, hhint, -, -, hsized⟩ := draining_loses_nothing impatient_serves rfl start
    hkept impatientWorld_exact hafter
  have hfirst' := hoffer rfl _ rfl
  have hsecond' := hagain rfl _ rfl
  rw [hfirst] at hfirst'
  rw [hsecond] at hsecond'
  refine ⟨w₁, w₂, hfirst, ?_, hsecond, hsecond', w₃, ?_⟩
  · cases hfirst' with
    | refused _ _ pending => exact pending
  · rw [hhint, hsized ⟨rfl, by decide⟩]
    rfl

/-- A sequence that promises no length is believed, too: the hint is short of what is left. -/
theorem lengthHint_uncounted :
    ((do
      let h ← newAdapter (.listed (t := .i64) [(1 : Int64), (2 : Int64), (3 : Int64)] false) none
      lengthHint h) impatient { impatientWorld with heap := .empty }).answer? = some (some 0) ∧
    (Source.listed (t := .i64) [(1 : Int64), (2 : Int64), (3 : Int64)] false).toList.length = 3 := by
  decide +kernel

end Causeway
