import Causeway.Proofs.NativeConservation
import Causeway.View
/-!
# Conservation by protocols, cursors and passes

A cursor owns its iterator and what it looked ahead; a pass owns its cursor and what was drawn so
far. What a pass is given are the converter of the elements and what discards a value that nobody
takes: both are asked to conserve, and nothing else is asked of them.
-/
set_option autoImplicit false

namespace Causeway

open Act

variable {U α σ : Type} {O : Ownership U} {d : Discipline} {H : Multiset Handle}

theorem getIter_conserves (h : Handle) :
    Conserves O d 0 (getIter h : Act U (Option Handle)) fun o => ↑o.toList := by
  have hbuiltin : Conserves O d 0
      (do some <$> alloc (.iterator (← acquire h) 0) : Act U (Option Handle))
      fun o => ↑o.toList :=
    .next (acquire_conserves (K := fun k => {k}) rfl) fun k =>
      .map (alloc_conserves (.iterator k 0))
  apply Conserves.ask (.heap _)
  intro p
  split
  · exact .aside (raise_conserves _ _) fun _ => .pure rfl
  · exact hbuiltin
  · exact hbuiltin
  · exact hbuiltin
  · exact hbuiltin
  · exact .map (acquire_conserves rfl)
  · split
    · exact runIterSlot_conserves _ h
    · exact .aside (raiseType_conserves _) fun _ => .pure rfl

theorem moveTo_conserves (it : Handle) (position : Nat) :
    Conserves O d 0 (moveTo it position : Act U Unit) fun _ => 0 := by
  apply Conserves.ofHeap
  intro p env w henv hw found
  split
  · exact .changeLast found (.move _ _ position) rfl
  · exact .of_act (.pure rfl) henv hw

theorem sequenceNext_conserves (it seq : Handle) (position : Nat) :
    Conserves O d 0 (sequenceNext it seq position : Act U (Option Handle))
      fun o => ↑o.toList := by
  apply Conserves.ask (askPayload_reads seq _)
  intro step
  split
  · refine .next (acquire_conserves (K := fun k => {k}) rfl) fun k => ?_
    exact .aside (moveTo_conserves it _) fun _ => .pure rfl
  · apply Conserves.next (allocLeaf_conserves rfl)
    intro k
    exact .aside (moveTo_conserves it _) fun _ => .pure rfl
  · exact .pure rfl

theorem iterNext_conserves (it : Handle) :
    Conserves O d 0 (iterNext it : Act U (Option Handle)) fun o => ↑o.toList := by
  apply Conserves.ask (.heap _)
  intro p
  split
  · exact .aside (raise_conserves _ _) fun _ => .pure rfl
  · exact sequenceNext_conserves it _ _
  · split
    · apply Conserves.next (runNextSlot_conserves _ it)
      intro found
      split
      · apply Conserves.ask (holds_reads _)
        intro stopped
        split
        · exact .aside clear_conserves fun _ => .pure rfl
        · exact .pure rfl
      · exact .pure rfl
    · exact .aside (raiseType_conserves _) fun _ => .pure rfl

theorem isIterable_conserves (h : Handle) :
    Conserves O d 0 (isIterable h : Act U Bool) fun _ => 0 := by
  apply Conserves.aside (swap_conserves none)
  intro pending
  refine .next (getIter_conserves h) fun it => .next (releaseAll_conserves it.toList) fun _ => ?_
  exact .aside clear_conserves fun _ => .aside (putBack_conserves _) fun _ => .pure rfl

theorem lengthHint_conserves (h : Handle) :
    Conserves O d 0 (lengthHint h : Act U (Option Nat)) fun _ => 0 := by
  apply Conserves.ask (.heap _)
  intro p
  split
  · split
    · apply Conserves.aside (swap_conserves none)
      intro pending
      apply Conserves.aside (runHintSlot_conserves _ h)
      intro _
      exact .aside clear_conserves fun _ => .aside (putBack_conserves _) fun _ => .pure rfl
    · exact .pure rfl
  · exact .pure rfl
  · exact .pure rfl

theorem isCallable_reads (h : Handle) : (isCallable h : Act U Bool).Reads :=
  (askPayload_reads h _).bind fun _ => .pure _

theorem newArguments_conserves (n : Nat) :
    Conserves O d 0 (newArguments n : Act U Handle) fun h => {h} :=
  allocLeaf_conserves (by simp [Payload.units])

/-- What was in the slot is what the container does not own any more. -/
theorem fill_units (slots : List (Option Handle)) (i : Nat) (previous : Option Handle)
    (value : Handle) (found : slots[i]? = some previous) :
    ({value} + ↑(slots.filterMap id) : Multiset Handle) =
      ↑previous.toList + ↑((slots.set i (some value)).filterMap id) := by
  induction slots generalizing i with
  | nil => simp at found
  | cons slot slots ih =>
    cases i with
    | zero =>
      simp only [List.getElem?_cons_zero, Option.some.injEq] at found
      subst found
      cases slot with
      | none =>
        simp only [List.filterMap_cons, id, List.set_cons_zero, coe_cons, Option.toList_none,
          Multiset.coe_nil, zero_add]
      | some h =>
        simp only [List.filterMap_cons, id, List.set_cons_zero, coe_cons, Option.toList_some,
          Multiset.coe_singleton]
        abel
    | succ i =>
      have hrest := ih i (by simpa using found)
      cases slot with
      | none => simpa using hrest
      | some h =>
        simp only [List.filterMap_cons, id, List.set_cons_succ, coe_cons]
        calc ({value} + ({h} + ↑(slots.filterMap id)) : Multiset Handle)
            = {h} + ({value} + ↑(slots.filterMap id)) := by abel
          _ = {h} + (↑previous.toList + ↑((slots.set i (some value)).filterMap id)) := by rw [hrest]
          _ = _ := by abel

theorem setArgument_conserves (container : Handle) (index : Nat) (value : Handle) :
    Conserves O d {value} (setArgument container index value : Act U Unit) fun _ => 0 := by
  have hrefuse : Conserves O d {value}
      (do release value; Act.fault (.noArgumentSlot container index) : Act U Unit) fun _ => 0 :=
    .next (release_conserves value) fun _ => .fault (by simp)
  apply Conserves.ofHeap
  intro p env w henv hw found
  split
  · rename_i slots
    cases hslot : slots[index]? with
    | some previous =>
      exact .change found (.fill slots index value) (fill_units slots index previous value hslot)
        henv hw (releaseAll_conserves _)
    | none => exact .of_act hrefuse henv hw
  · exact .of_act hrefuse henv hw

theorem invoke_conserves (callable arguments : Handle) :
    Conserves O d 0 (invoke callable arguments : Act U (Option Handle)) fun o => ↑o.toList := by
  apply Conserves.ask (.heap _)
  intro p
  split
  · exact .aside (raise_conserves _ _) fun _ => .pure rfl
  · rename_i name code
    apply Conserves.ask (.heap _)
    intro p
    split
    · split
      · exact .aside (raise_conserves _ _) fun _ => .pure rfl
      · rename_i hs _
        apply Conserves.aside (.emit _)
        intro _
        refine .next (K := fun o => ↑o.toList) ?_ fun result => .ask isSet_reads fun pending => ?_
        · exact fun _ henv w hw => henv.hooks.call d code hs w hw
        split
        · exact .pure rfl
        · exact .aside (.emit _) fun _ => .pure rfl
        · exact .aside (raise_conserves _ _) fun _ => .aside (.emit _) fun _ => .pure rfl
        · refine .next (release_conserves _) fun _ => .aside (swap_conserves none) fun e => ?_
          exact .aside (raise_conserves _ _) fun _ => .aside (.emit _) fun _ => .pure rfl
    · exact .aside (raiseType_conserves _) fun _ => .pure rfl
  · exact .aside (raiseType_conserves _) fun _ => .pure rfl

structure Intake.Lawful (O : Ownership U) (p : Intake U α) : Prop where
  convert : ∀ d h, Conserves O d 0 (p.convert h) (unitsIf fun v => ↑(p.units v))
  discard : ∀ d v, Conserves O d ↑(p.units v) (p.discard v) fun _ => 0

namespace Cursor

variable {p : Intake U α}

theorem units_of_none {c : Cursor α} (hc : c.current = none) (units : α → List Handle) :
    c.units units = [c.iterator] := by
  simp only [Cursor.units, hc]

theorem units_of_some {c : Cursor α} {element : Handle} {v : α}
    (hc : c.current = some (element, v)) (units : α → List Handle) :
    (↑(c.units units) : Multiset Handle) = {element} + ↑(units v) + {c.iterator} := by
  simp only [Cursor.units, hc, coe_append, coe_cons, Multiset.coe_singleton]

/-- A fetch leaves the iterator where it is, and what it fetches is in the cache. -/
theorem fetch_conserves (hp : p.Lawful O) {c : Cursor α} (hc : c.current = none) :
    Conserves O d {c.iterator} (fetch p c) fun r => ↑(r.1.units p.units) := by
  have hstop : ∀ (f : Option Failure), Conserves O d {c.iterator}
      (pure ({ c with fused := true }, f) : Act U (Cursor α × Option Failure))
      fun r => ↑(r.1.units p.units) := fun f =>
    .pure (by rw [units_of_none (c := { c with fused := true }) hc]; rfl)
  unfold fetch
  split
  · exact .pure (by rw [units_of_none hc]; rfl)
  apply Conserves.ask isSet_reads
  intro pending
  split
  · exact hstop _
  apply Conserves.bind {c.iterator} (iterNext_conserves _) (zero_add _).symm
  intro found
  cases found with
  | none =>
    refine .of_eq ?_ (zero_add _).symm fun _ => rfl
    apply Conserves.ask isSet_reads
    intro pending
    split
    · exact hstop _
    · exact .aside (.emit _) fun _ => hstop _
  | some element =>
    refine .bind ({element} + {c.iterator}) (holding_conserves _ (hp.convert d element))
      (zero_add _).symm fun out => .ask isSet_reads fun pending => ?_
    split
    · rename_i v
      refine .pure ?_
      have hcurrent : ({ c with current := some (element, v) } : Cursor α).current =
          some (element, v) := rfl
      rw [units_of_some hcurrent, unitsIf]
      abel
    · refine .bind (K := fun _ => 0) ({element} + {c.iterator}) (holding_conserves _ ?_) rfl
        fun _ => ?_
      · cases out with
        | none => exact .pure rfl
        | some v => exact hp.discard d v
      apply Conserves.bind {c.iterator} (release_conserves element) (zero_add _)
      intro _
      refine .of_eq ?_ (zero_add _).symm fun _ => rfl
      exact .aside clear_conserves fun _ => .aside (.emit _) fun _ => hstop _

theorem discardCurrent_answers (c : Cursor α) :
    (discardCurrent p c).Answers fun c' => c' = { c with current := none } := by
  unfold discardCurrent
  cases c.current with
  | none => exact .pure rfl
  | some e => exact .bind fun _ => .bind fun _ => .pure rfl

theorem discardCurrent_conserves (hp : p.Lawful O) (c : Cursor α) :
    Conserves O d ↑(c.units p.units) (discardCurrent p c) fun _ => {c.iterator} := by
  unfold discardCurrent
  cases hc : c.current with
  | none =>
    rw [units_of_none hc]
    exact .pure rfl
  | some e =>
    obtain ⟨element, v⟩ := e
    rw [units_of_some hc]
    refine .bind (↑(p.units v) + {c.iterator}) (holding_conserves _ (release_conserves element))
      (add_assoc _ _ _) fun _ => ?_
    refine .bind {c.iterator} (hp.discard d v) (zero_add _) fun _ => .pure (zero_add _)

theorem advance_conserves (hp : p.Lawful O) (c : Cursor α) :
    Conserves O d ↑(c.units p.units) (advance p c) fun r => ↑(r.1.units p.units) := by
  unfold advance
  cases c.pending with
  | some f => exact .pure rfl
  | none =>
    dsimp only
    split
    · exact .pure rfl
    apply Conserves.nextOf (discardCurrent_answers c) (discardCurrent_conserves hp c)
    intro c' hc'
    subst hc'
    exact fetch_conserves (c := { c with current := none, position := c.position + 1 }) hp rfl

/-- The value leaves with its units; everything else is the cursor's. -/
theorem next_conserves (hp : p.Lawful O) (c : Cursor α) :
    Conserves O d ↑(c.units p.units) (next p c)
      fun r => ↑(r.1.units p.units) + unitsIf (unitsOk fun v => ↑(p.units v)) r.2 := by
  unfold next
  cases c.pending with
  | some f => exact .pure (add_zero _).symm
  | none =>
    cases hc : c.current with
    | none => exact .pure (add_zero _).symm
    | some e =>
      obtain ⟨element, v⟩ := e
      rw [units_of_some hc]
      refine .bind (↑(p.units v) + {c.iterator}) (holding_conserves _ (release_conserves element))
        (add_assoc _ _ _) fun _ => ?_
      have hfetch := fetch_conserves (d := d) (c := { c with
        current := none, position := c.position + 1, pending := none }) hp rfl
      refine .bind ↑(p.units v) (holding_conserves _ hfetch) ?_ fun r => ?_
      · exact (zero_add _).trans (add_comm _ _)
      · exact .pure rfl

theorem drop_conserves (hp : p.Lawful O) (c : Cursor α) :
    Conserves O d ↑(c.units p.units) (c.drop p) fun _ => 0 :=
  .next (holding_conserves _ (discardCurrent_conserves hp c)) fun _ => release_conserves _

end Cursor

namespace View

variable {p : Intake U α}

theorem make_conserves (h : Handle) :
    Conserves O d 0 (make h : Act U (Except Failure Handle)) (unitsOk fun h => {h}) := by
  apply Conserves.aside (isIterable_conserves h)
  intro b
  split
  · exact .map (acquire_conserves rfl)
  · exact .ask (typeNameOf_reads h) fun _ => .pure rfl

theorem begin_conserves (hp : p.Lawful O) (iterable : Handle) :
    Conserves O d 0 (begin p iterable) (unitsOk fun c => ↑(c.units p.units)) := by
  apply Conserves.next (getIter_conserves iterable)
  intro it
  cases it with
  | none =>
    apply Conserves.ask isSet_reads
    intro pending
    split
    · exact .pure rfl
    · exact .pure rfl
  | some it =>
    refine .ask (typeNameOf_reads iterable) fun _ => .aside (.emit _) fun _ => ?_
    have hfetch := Cursor.fetch_conserves (d := d) (c := .start it) hp rfl
    apply Conserves.next (holding_conserves _ hfetch)
    intro r
    obtain ⟨c, failure⟩ := r
    cases failure with
    | none => exact .pure rfl
    | some f => exact .next (Cursor.drop_conserves hp c) fun _ => .pure rfl

/-- Round after round, what is drawn moves from the cursor to the values drawn before. -/
theorem drawFrom_conserves (hp : p.Lawful O) (c : Cursor α) (out : Array α) :
    Conserves O d ↑(c.units p.units ++ out.toList.flatMap p.units) (drawFrom p c out)
      (unitsOk fun vs => ↑(vs.flatMap p.units)) := by
  refine .loop (I := fun s : Cursor α × Array α =>
    ↑(s.1.units p.units ++ s.2.toList.flatMap p.units)) (fun s => ?_) (c, out)
  obtain ⟨c, out⟩ := s
  refine .bind ↑(out.toList.flatMap p.units)
    ((Cursor.next_conserves hp c).onFault (releaseAll_conserves _)) (coe_append _ _) fun r => ?_
  obtain ⟨c', o⟩ := r
  cases o with
  | none =>
    refine .bind ↑(out.toList.flatMap p.units)
      (holding_conserves _ (Cursor.drop_conserves hp c')) (by simp [unitsIf]) fun _ => ?_
    exact .pure (zero_add _)
  | some r =>
    cases r with
    | ok v =>
      refine .pure ?_
      simp only [unitsIf, unitsOk, Sum.elim_inl, Array.toList_push, List.flatMap_append,
        List.flatMap_cons, List.flatMap_nil, List.append_nil, coe_append]
      abel
    | error f =>
      refine .bind ↑(out.toList.flatMap p.units)
        (holding_conserves _ (Cursor.drop_conserves hp c')) (by simp [unitsIf, unitsOk])
        fun _ => ?_
      exact .bind 0 (releaseAll_conserves _) (by simp) fun _ => .pure rfl

theorem collect_conserves (hp : p.Lawful O) (iterable : Handle) :
    Conserves O d 0 (collect p iterable) (unitsOk fun vs => ↑(vs.flatMap p.units)) := by
  apply Conserves.next (begin_conserves hp iterable)
  intro r
  cases r with
  | error f => exact .pure rfl
  | ok c => exact (drawFrom_conserves hp c #[]).of_eq (by simp [unitsOk]) fun _ => rfl

theorem collectSized_conserves (hp : p.Lawful O) (iterable : Handle) :
    Conserves O d 0 (collectSized p iterable) (unitsOk fun vs => ↑(vs.flatMap p.units)) := by
  apply Conserves.ask .settings
  intro s
  split
  · refine .aside (.aside (lengthHint_conserves _) fun count => ?_)
      fun _ => collect_conserves hp iterable
    cases count with
    | some n => exact reserve_conserves _ _
    | none => exact .pure rfl
  · exact collect_conserves hp iterable

theorem tryForEach_conserves (hp : p.Lawful O) {visit : σ → α → Act U σ}
    (hvisit : ∀ s v, Conserves O d 0 (visit s v) fun _ => 0) (iterable : Handle) (s : σ) :
    Conserves O d 0 (tryForEach p visit iterable s) fun _ => 0 := by
  apply Conserves.next (begin_conserves hp iterable)
  intro r
  cases r with
  | error f => exact .pure rfl
  | ok c =>
    refine .loop (I := fun s : Cursor α × σ => ↑(s.1.units p.units)) (fun s => ?_) (c, s)
    obtain ⟨c, s⟩ := s
    dsimp only
    split
    · exact .next (Cursor.drop_conserves hp c) fun _ => .pure rfl
    · rename_i v _
      apply Conserves.aside ((hvisit s v).onFault (Cursor.drop_conserves hp c))
      intro s
      apply Conserves.next (holding_conserves _ (Cursor.advance_conserves hp c))
      intro r
      obtain ⟨c', failure⟩ := r
      cases failure with
      | none => exact .pure rfl
      | some f => exact .next (Cursor.drop_conserves hp c') fun _ => .pure rfl

end View

end Causeway
