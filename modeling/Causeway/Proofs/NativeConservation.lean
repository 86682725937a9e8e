import Causeway.Proofs.ReferenceConservation
import Causeway.Export
/-!
# Conservation by conversions into the peer and by native objects

A converter borrows its value and yields a unit. A native object owns the units of its state; while
the state is lent, whoever works on it has them in hand.
-/
set_option autoImplicit false

namespace Causeway

open Act

variable {U α β : Type} {O : Ownership U} {d : Discipline} {H : Multiset Handle}

/-- The units of the items not yet converted, of what is beyond them, and of the results so far are
all accounted for, whichever item fails. -/
theorem convertFrom_conserves (units : α → List Handle) {convert : α → Act U (Option Handle)}
    (hconvert : ∀ x, Conserves O d 0 (convert x) fun o => ↑o.toList) (beyond : List Handle)
    (items : List α) (index : Nat) (converted : Array Handle) :
    Conserves O d ↑(items.flatMap units ++ beyond ++ converted.toList)
      (convertFrom units convert beyond items index converted) (unitsOk fun hs => ↑hs) := by
  induction items generalizing index converted with
  | nil =>
    refine .bind ↑converted.toList (holding_conserves _ (releaseAll_conserves beyond)) ?_ ?_
    · exact coe_append beyond converted.toList
    · exact fun _ => .pure (zero_add _)
  | cons x xs ih =>
    apply Conserves.bind _ ((hconvert x).onFault (releaseAll_conserves _)) (zero_add _).symm
    intro out
    apply Conserves.ask isSet_reads
    intro pending
    split
    · rename_i h
      refine .bind ↑(xs.flatMap units ++ beyond ++ (converted.push h).toList)
        ((releaseAll_conserves (units x)).onFault (releaseAll_conserves _)) ?_ fun _ => ?_
      · simp only [Option.toList_some, List.flatMap_cons, coe_append, Array.toList_push,
          Multiset.coe_singleton]
        abel
      · exact (ih (index + 1) (converted.push h)).of_eq (zero_add _).symm fun _ => rfl
    · refine .bind ↑(out.toList ++ (x :: xs).flatMap units ++ beyond)
        (holding_conserves _ (releaseAll_conserves converted.toList)) ?_ fun _ => ?_
      · simp only [coe_append]
        abel
      · refine .aside clear_conserves fun _ => .aside (.emit _) fun _ => ?_
        exact .bind 0 (releaseAll_conserves _) (by simp) fun _ => .pure rfl

/-- What a sequence has in store comes out before its first end or lies beyond it. -/
theorem Source.flatMap_stored {t : NativeType} {units : t.Value → List Handle}
    (hunits : ∀ v, t.units v = [] → units v = []) (s : Source t) :
    s.stored.flatMap units = s.toList.flatMap units ++ s.beyond.flatMap units := by
  cases s with
  | listed items counted => simp [stored, toList, beyond]
  | gapped wait items => rw [← List.flatMap_append, toList, beyond, List.take_append_drop, stored]
  | span a b =>
    have hitems (vs : List Int64) : vs.flatMap units = [] :=
      List.flatMap_eq_nil_iff.2 fun v _ => hunits v rfl
    rw [stored, beyond, List.flatMap_nil, List.append_nil]
    exact (hitems _).symm

theorem Source.units_eq {t : NativeType} (s : Source t) :
    s.units = s.toList.flatMap t.units ++ s.beyond.flatMap t.units :=
  s.flatMap_stored fun _ h => h

theorem convertAll_conserves {t : NativeType} {units : t.Value → List Handle}
    (hunits : ∀ v, t.units v = [] → units v = []) {convert : t.Value → Act U (Option Handle)}
    (hconvert : ∀ x, Conserves O d 0 (convert x) fun o => ↑o.toList) (source : Source t) :
    Conserves O d ↑(source.stored.flatMap units) (convertAll units convert source)
      (unitsOk fun hs => ↑hs) := by
  apply Conserves.ask isSet_reads
  intro pending
  split
  · exact .next (releaseAll_conserves _) fun _ => .pure rfl
  · refine .next (holding_conserves _ (reserve_conserves _ _)) fun _ => ?_
    exact (convertFrom_conserves units hconvert _ _ 0 #[]).of_eq
      (by simp [source.flatMap_stored hunits]) fun _ => rfl

theorem toPeer_conserves (t : NativeType) (v : t.Value) :
    Conserves O d 0 (toPeer t v : Act U (Option Handle)) fun o => ↑o.toList := by
  induction t with
  | i64 | i32 | f64 | bool | text | unit => exact .map (allocLeaf_conserves rfl)
  | usize =>
    unfold toPeer
    split
    · exact .map (allocLeaf_conserves rfl)
    · exact .aside (raise_conserves _ _) fun _ => .pure rfl
  | object | view | callable => exact .map (acquire_conserves rfl)
  | option t ih =>
    cases v with
    | none => exact .map (allocLeaf_conserves rfl)
    | some v => exact ih v
  | pair a b iha ihb =>
    obtain ⟨x, y⟩ := v
    apply Conserves.next (iha x)
    intro h
    cases h with
    | none => exact .pure rfl
    | some h =>
      apply Conserves.bind {h} (holding_conserves _ (ihb y)) (by simp)
      intro k
      cases k with
      | none => exact .bind 0 (release_conserves h) (by simp) fun _ => .pure rfl
      | some k =>
        refine .map ((newTuple_conserves [h, k]).of_eq ?_ fun _ => rfl)
        simp only [Option.toList_some, coe_cons]
        abel
  | triple a b c iha ihb ihc =>
    obtain ⟨x, y, z⟩ := v
    apply Conserves.next (iha x)
    intro h
    cases h with
    | none => exact .pure rfl
    | some h =>
      apply Conserves.bind {h} (holding_conserves _ (ihb y)) (by simp)
      intro k
      cases k with
      | none => exact .bind 0 (release_conserves h) (by simp) fun _ => .pure rfl
      | some k =>
        refine .bind ↑[k, h] (holding_conserves _ (ihc z)) ?_ fun l => ?_
        · simp only [Option.toList_some, coe_cons]
          abel
        · cases l with
          | none => exact .bind 0 (releaseAll_conserves [k, h]) (by simp) fun _ => .pure rfl
          | some l =>
            refine .map ((newTuple_conserves [h, k, l]).of_eq ?_ fun _ => rfl)
            simp only [Option.toList_some, coe_cons]
            abel
  | vec t ih =>
    have hnone : List.flatMap (fun _ => ([] : List Handle)) v = [] :=
      List.flatMap_eq_nil_iff.2 fun _ _ => rfl
    have hnothing : ∀ x : t.Value, t.units x = [] → (fun _ => ([] : List Handle)) x = [] :=
      fun _ _ => rfl
    have hall := convertAll_conserves hnothing ih (.listed v true)
    refine .next (hall.of_eq (congrArg _ hnone) fun _ => rfl) fun r => ?_
    cases r with
    | ok items => exact .map (alloc_conserves (.list items))
    | error f => exact .aside (reflect_conserves f) fun _ => .pure rfl

theorem convertOut_conserves (code : Option CodeId) (t : NativeType) (v : t.Value) :
    Conserves O d 0 (convertOut code t v : Act U (Option Handle)) fun o => ↑o.toList := by
  cases code with
  | none => exact toPeer_conserves t v
  | some code => exact fun _ henv w hw => henv.hooks.toPeer d code t v w hw

theorem NativeState.of_get? {s : NativeState} {kind : StateKind} {typed : kind.State}
    (h : s.get? kind = some typed) : NativeState.of kind typed = s := by
  cases kind <;> cases s <;> cases h <;> rfl

theorem putStateBack_conserves (obj : Handle) (s : NativeState) :
    Conserves O d ↑s.units (putStateBack obj s : Act U Bool)
      fun back => if back then 0 else ↑s.units := by
  apply Conserves.ofHeap
  intro p env w henv hw found
  split
  · rename_i t
    exact .change found (.state t none (some s)) (by simp [Payload.units]) henv hw (.pure rfl)
  · exact .of_act (.pure rfl) henv hw

/-- What works on the state has its units in hand, and gives back whatever it makes of it. -/
theorem withState_conserves (obj : Handle) (kind : StateKind) (units : α → List Handle)
    {f : kind.State → Act U (kind.State × α)}
    (hf : ∀ s, Conserves O d ↑(NativeState.of kind s).units (f s)
      fun r => ↑(NativeState.of kind r.1).units + ↑(units r.2)) :
    Conserves O d 0 (withState obj kind units f) (unitsIf fun a => ↑(units a)) := by
  apply Conserves.ofHeap
  intro p env w henv hw found
  split
  · exact .of_act (.aside (raise_conserves _ _) fun _ => .pure rfl) henv hw
  · exact .of_act (.aside (raise_conserves _ _) fun _ => .pure rfl) henv hw
  · rename_i t s
    have hunits : (0 : Multiset Handle) + ↑(Payload.native t (some s)).units =
        ↑s.units + ↑(Payload.native t none).units := by simp [Payload.units]
    refine .change found (.state t (some s) none) hunits henv hw ?_
    cases hs : s.get? kind with
    | some typed =>
      refine .next ((hf typed).of_eq (by rw [NativeState.of_get? hs]) fun _ => rfl) fun r => ?_
      obtain ⟨typed', a⟩ := r
      apply Conserves.bind ↑(units a) (putStateBack_conserves obj _) rfl
      intro back
      cases back with
      | true => exact .pure (zero_add _)
      | false =>
        apply Conserves.bind ↑(units a) (holding_conserves _ (disposeState_conserves t _)) rfl
        intro _
        exact .pure (zero_add _)
    | none =>
      apply Conserves.aside (holding_conserves _ (raiseType_conserves _))
      intro _
      apply Conserves.next (putStateBack_conserves obj s)
      intro back
      cases back with
      | true => exact .pure rfl
      | false => exact .next (disposeState_conserves t s) fun _ => .pure rfl
  · exact .of_act (.aside (raiseType_conserves _) fun _ => .pure rfl) henv hw

theorem withState_answers {obj : Handle} {kind : StateKind} {units : α → List Handle}
    {f : kind.State → Act U (kind.State × α)} {φ : α → Prop}
    (hf : ∀ s, (f s).Answers fun r => φ r.2) :
    (withState obj kind units f).Answers fun o => ∀ a, o = some a → φ a := by
  have hnone : (pure none : Act U (Option α)).Answers fun o => ∀ a, o = some a → φ a :=
    .pure (by simp)
  refine .bind fun p => ?_
  split
  · exact .bind fun _ => hnone
  · exact .bind fun _ => hnone
  · refine .bind fun _ => ?_
    split
    · refine .next (hf _) fun r hr => ?_
      have hsome : (pure (some r.2) : Act U (Option α)).Answers fun o => ∀ a, o = some a → φ a :=
        .pure fun a ha => by cases ha; exact hr
      refine .bind fun back => ?_
      cases back with
      | true => exact hsome
      | false => exact .bind fun _ => hsome
    · refine .bind fun _ => .bind fun back => ?_
      cases back with
      | true => exact hnone
      | false => exact .bind fun _ => hnone
  · exact .bind fun _ => hnone

theorem instantiate_conserves (t : Descriptor) (s : NativeState) :
    Conserves O d ↑s.units (instantiate t s : Act U Handle) fun h => {h} :=
  alloc_conserves (.native t (some s))

namespace Source

variable {t : NativeType}

theorem next?_units {s rest : Source t} {v : t.Value} (h : s.next? = some (v, rest)) :
    s.units = t.units v ++ rest.units := by
  cases s with
  | listed items counted =>
    cases items with
    | nil => simp [next?] at h
    | cons x xs =>
      simp only [next?, Option.some.injEq, Prod.mk.injEq] at h
      obtain ⟨rfl, rfl⟩ := h
      simp [units, stored]
  | gapped wait items =>
    cases wait with
    | zero => simp [next?] at h
    | succ n =>
      cases items with
      | nil => simp [next?] at h
      | cons x xs =>
        simp only [next?, Option.some.injEq, Prod.mk.injEq] at h
        obtain ⟨rfl, rfl⟩ := h
        simp [units, stored]
  | span a b =>
    simp only [next?] at h
    split at h
    · cases h
      rfl
    · cases h

end Source

namespace Adapter

/-- Looking at the next item loses nothing: at the end the rest of the sequence comes free, and an
item that was looked at leaves with its own units only. -/
theorem peek_cases (a : Adapter) :
    (∃ b left, a.peek = (none, b, left) ∧ (↑b.units + ↑left : Multiset Handle) = ↑a.units) ∨
    ∃ v b, a.peek = (some v, b, []) ∧ (↑b.units : Multiset Handle) = ↑a.units ∧
      (↑b.advance.units + ↑(a.elem.units v) : Multiset Handle) = ↑a.units := by
  obtain ⟨t, convert, source, peeked, produced⟩ := a
  cases peeked with
  | some o =>
    cases o with
    | none => exact .inl ⟨_, [], rfl, by simp⟩
    | some v => exact .inr ⟨v, _, rfl, rfl, by simp [advance, units]⟩
  | none =>
    cases hn : source.next? with
    | none =>
      refine .inl ⟨⟨t, convert, .spent, some none, produced⟩, source.units, by simp only [peek, hn],
        ?_⟩
      simp [units, Source.spent, Source.units, Source.stored]
    | some r =>
      obtain ⟨v, rest⟩ := r
      have hunits := Source.next?_units hn
      refine .inr ⟨v, ⟨t, convert, rest, some (some v), produced⟩, by simp only [peek, hn], ?_, ?_⟩
      · simp only [units, hunits, coe_append]
        abel
      · simp only [advance, units, hunits, coe_append]
        abel

theorem step_conserves (a : Adapter) :
    Conserves O d ↑a.units (a.step : Act U (Adapter × Option Handle))
      fun r => ↑r.1.units + ↑r.2.toList := by
  apply Conserves.ask isSet_reads
  intro pending
  split
  · exact .pure (add_zero _).symm
  obtain ⟨b, left, hpeek, hunits⟩ | ⟨v, b, hpeek, hunits, hadvance⟩ := a.peek_cases
  · rw [hpeek]
    refine .bind ↑b.units (holding_conserves _ (releaseAll_conserves left)) ?_ fun _ => ?_
    · rw [← hunits, add_comm]
    · exact .bind ↑b.units (.emit _) (zero_add _) fun _ => .pure (by simp)
  · rw [hpeek]
    have hconvert : Conserves O d 0 (convertOut a.convert a.elem v : Act U (Option Handle)) _ :=
      convertOut_conserves a.convert a.elem v
    apply Conserves.bind ↑b.units (holding_conserves _ hconvert) (by simp [hunits])
    intro out
    apply Conserves.ask isSet_reads
    intro pending
    split
    · rename_i h
      refine .bind ({h} + ↑b.advance.units)
        (holding_conserves _ (releaseAll_conserves (a.elem.units v))) ?_ fun _ => .pure ?_
      · rw [hunits, ← hadvance]
        simp only [Option.toList_some, Multiset.coe_singleton]
        abel
      · simp only [Option.toList_some, Multiset.coe_singleton]
        abel
    · have hrefuse : Conserves O d ↑out.toList (do
          releaseAll out.toList
          Indicator.clear
          Act.emit (.conversionFailed .element a.produced)
          raiseType "bad element in iterable" : Act U Unit) fun _ => 0 := by
        apply Conserves.next (releaseAll_conserves out.toList)
        intro _
        exact .aside clear_conserves fun _ => .aside (.emit _) fun _ => raiseType_conserves _
      refine .bind ↑b.units (holding_conserves _ hrefuse) rfl fun _ => .pure ?_
      simp

end Adapter

theorem newAdapter_conserves {t : NativeType} (source : Source t) (convert : Option CodeId) :
    Conserves O d ↑source.units (newAdapter source convert : Act U Handle) fun h => {h} := by
  refine .aside (.aside (.emit _) fun _ => .pure rfl) fun t => ?_
  refine (instantiate_conserves t _).of_eq ?_ fun _ => rfl
  simp [NativeState.units, Adapter.units, Adapter.start]

theorem newCollection_conserves {t : NativeType} (source : Source t) (convert : Option CodeId) :
    Conserves O d ↑source.units (newCollection source convert : Act U Handle) fun h => {h} :=
  .aside (.aside (.emit _) fun _ => .pure rfl) fun d =>
    instantiate_conserves d (.collection ⟨t, convert, source⟩)

theorem copyAll_conserves (units : β → List Handle) {copy : β → Act U Unit}
    (hcopy : ∀ v, Conserves O d 0 (copy v) fun _ => ↑(units v)) (made : List Handle)
    (vs : List β) :
    Conserves O d 0 (copyAll units copy made vs) fun _ => ↑(vs.flatMap units) := by
  induction vs generalizing made with
  | nil => exact .pure rfl
  | cons v vs ih =>
    apply Conserves.next (holding_conserves made (hcopy v))
    intro _
    refine ((ih (made ++ units v)).frame ↑(units v)).of_eq (zero_add _) fun _ => ?_
    rw [List.flatMap_cons, coe_append, add_comm]

theorem copyValue_conserves (t : NativeType) (v : t.Value) :
    Conserves O d 0 (copyValue t v : Act U Unit) fun _ => ↑(t.units v) := by
  induction t with
  | i64 | i32 | usize | f64 | bool | text | unit => exact .pure rfl
  | object | view | callable =>
    exact .next (acquire_conserves (K := fun _ => {v}) rfl) fun _ => .pure rfl
  | option t ih =>
    cases v with
    | none => exact .pure rfl
    | some v => exact ih v
  | pair a b iha ihb =>
    obtain ⟨x, y⟩ := v
    apply Conserves.next (iha x)
    intro _
    refine ((holding_conserves _ (ihb y)).frame ↑(a.units x)).of_eq (zero_add _) fun _ => ?_
    rw [NativeType.units, coe_append, add_comm]
  | triple a b c iha ihb ihc =>
    obtain ⟨x, y, z⟩ := v
    apply Conserves.next (iha x)
    intro _
    apply Conserves.bind ↑(a.units x) (holding_conserves _ (ihb y)) (zero_add _).symm
    intro _
    refine ((holding_conserves _ (ihc z)).frame (↑(b.units y) + ↑(a.units x))).of_eq (zero_add _)
      fun _ => ?_
    simp only [NativeType.units, coe_append]
    abel
  | vec t ih => exact copyAll_conserves t.units ih [] v

theorem copyCollection_conserves (c : Collection) :
    Conserves O d 0 (copyCollection c : Act U Collection) fun c => ↑c.units :=
  .next (copyAll_conserves c.elem.units (copyValue_conserves c.elem) [] c.source.stored)
    fun _ => .pure rfl

theorem runIterSlot_conserves (slot : IterSlot) (obj : Handle) :
    Conserves O d 0 (runIterSlot slot obj : Act U (Option Handle)) fun o => ↑o.toList := by
  cases slot with
  | self => exact .map (acquire_conserves rfl)
  | user code => exact fun _ henv w hw => henv.hooks.slot d code obj w hw
  | fresh =>
    have hcopy : ∀ c : Collection, Conserves O d ↑c.units
        (do let copy ← holding c.units (copyCollection c); pure (c, copy) :
          Act U (Collection × Collection)) fun r => ↑r.1.units + ↑r.2.units := fun c =>
      .bind ↑c.units (holding_conserves _ (copyCollection_conserves c)) (zero_add _).symm
        fun _ => .pure (add_comm _ _)
    apply Conserves.next (withState_conserves obj .collection Collection.units hcopy)
    intro copied
    cases copied with
    | none => exact .pure rfl
    | some c => exact .map (newAdapter_conserves c.source c.convert)

theorem runNextSlot_conserves (slot : NextSlot) (obj : Handle) :
    Conserves O d 0 (runNextSlot slot obj : Act U (Option Handle)) fun o => ↑o.toList := by
  cases slot with
  | user code => exact fun _ henv w hw => henv.hooks.slot d code obj w hw
  | step =>
    apply Conserves.next (withState_conserves obj .adapter Option.toList Adapter.step_conserves)
    intro o
    cases o with
    | none => exact .pure rfl
    | some o => exact .pure rfl

theorem runHintSlot_conserves (slot : HintSlot) (obj : Handle) :
    Conserves O d 0 (runHintSlot slot obj : Act U (Option Nat)) fun _ => 0 := by
  cases slot with
  | user code => exact fun _ henv w hw => henv.hooks.measure d code obj w hw
  | remaining =>
    have hhint : ∀ a : Adapter, Conserves O d ↑a.units (pure (a, a.hint) : Act U (Adapter × Nat))
        fun r => ↑r.1.units + 0 := fun a => .pure (add_zero _).symm
    refine (withState_conserves obj .adapter (fun _ => []) hhint).of_eq rfl fun o => ?_
    cases o <;> rfl

theorem gather_conserves (mode : OutputMode) (items : List Handle) :
    Conserves O d ↑items (gather mode items : Act U (Except Failure Handle))
      (unitsOk fun h => {h}) := by
  cases mode with
  | tuple => exact .map (newTuple_conserves items)
  | list | onDemand => exact .map (alloc_conserves (.list items))
  | set | frozenSet =>
    apply Conserves.next (newSet_conserves items)
    intro o
    cases o with
    | none => exact .pure rfl
    | some h => exact .pure rfl

theorem exportSource_conserves {t : NativeType} (source : Source t) (convert : Option CodeId)
    (mode : OutputMode) :
    Conserves O d ↑source.units (exportSource source convert mode : Act U (Except Failure Handle))
      (unitsOk fun h => {h}) := by
  cases mode with
  | onDemand => exact .map (newAdapter_conserves source convert)
  | list | tuple | set | frozenSet =>
    apply Conserves.next (convertAll_conserves (fun _ h => h) (convertOut_conserves convert t) source)
    intro r
    cases r with
    | error f => exact .pure rfl
    | ok items => exact gather_conserves _ items

end Causeway
