import Causeway.Proofs.SideBySide
import Causeway.Export
import Causeway.Callable
/-!
# Passes and calls side by side

What is made of the peer protocols does the same on both sides as well: passes over an iterable,
conversions in either direction, calls and exports. Each of them is entered with the indicator
settled wherever it raises something, and each answer that says so leaves it settled: an object that
an iterator gave, a value that a pass took, an argument that converted.

Where a pass on the first side makes room that the other does not make, the two go the same way up
to the point at which there is no such room.
-/
set_option autoImplicit false

namespace Causeway

open Act

variable {U α σ : Type}

/-- Values of the type have no vectors in them, for which room would be made. -/
def NativeType.Flat : NativeType → Prop
  | .option t => t.Flat
  | .pair a b => a.Flat ∧ b.Flat
  | .triple a b c => a.Flat ∧ b.Flat ∧ c.Flat
  | .vec _ => False
  | _ => True

namespace Bond

variable {b : Bond U} {env env' : Env U} {short pre : Prop} {C : α → Prop} {h : Handle}

section

variable (hj : b.Joins env env')

theorem moveTo_agrees (it : Handle) (position : Nat) :
    b.Agrees env env' pre (moveTo it position) fun _ => pre := by
  refine .bind (.heap _) fun found => ?_
  split
  · exact .setPayload _ (.builtin rfl)
  · exact .pure ()

include hj

theorem getIter_agrees (h : Handle) (hpre : pre) :
    b.Agrees env env' pre (getIter h) fun o => o.isSome = true := by
  refine .payload fun found hfound => ?_
  split
  · exact refuse_agrees hj _ _ hpre
  · exact .bind (acquire_agrees hj h) fun _ => made_agrees hj rfl hpre
  · exact .bind (acquire_agrees hj h) fun _ => made_agrees hj rfl hpre
  · exact .bind (acquire_agrees hj h) fun _ => made_agrees hj rfl hpre
  · exact .bind (acquire_agrees hj h) fun _ => made_agrees hj rfl hpre
  · exact shared_agrees hj h hpre
  · split
    · refine runIterSlot_agrees hj ?_ h hpre
      exact ((hfound _ rfl).descriptor (P := fun d => ∀ slot, d.iter = some slot →
        ∀ code, slot ≠ .user code) (by rintro _ ⟨⟩; nofun) (by rintro _ ⟨⟩; nofun)).imp_right
          fun hslot => hslot _ rfl
    · exact refuse_agrees hj _ _ hpre

theorem sequenceNext_agrees (it seq : Handle) (position : Nat) :
    b.Agrees env env' pre (sequenceNext it seq position) fun _ => pre := by
  refine .bind (askPayload_agrees _ _) fun found => ?_
  split
  · exact .bind (acquire_agrees hj _) fun _ => .bind (moveTo_agrees _ _) fun _ => .pure _
  · exact .bind (alloc_agrees hj (.builtin rfl)) fun _ =>
      .bind (moveTo_agrees _ _) fun _ => .pure _
  · exact .pure none

theorem iterNext_agrees (it : Handle) (hpre : pre) :
    b.Agrees env env' pre (iterNext it) fun o => o.isSome = true := by
  refine .payload fun found hfound => ?_
  split
  · exact refuse_agrees hj _ _ hpre
  · exact (sequenceNext_agrees hj _ _ _).weaken fun _ _ => hpre
  · split
    · have hslot := (hfound _ rfl).descriptor (P := fun d => ∀ slot, d.next = some slot →
        ∀ code, slot ≠ .user code) (by rintro _ ⟨⟩; nofun) nofun
      refine .bind (runNextSlot_agrees hj (hslot.imp_right fun hslot => hslot _ rfl) it hpre)
        fun found => ?_
      cases found with
      | some o => exact Agrees.answer (a := some o) id
      | none =>
        refine .bind (.holds _) fun stopped => ?_
        split
        · exact .bind (clear_agrees hj) fun _ => .refused
        · exact .refused
    · exact refuse_agrees hj _ _ hpre

/-- The indicator is settled after a probe if it was before. -/
theorem isIterable_agrees (h : Handle) :
    b.Agrees env env' pre (isIterable h) fun _ => pre := by
  have hprobe : b.Agrees env env' pre (isIterable h) fun _ => False := by
    refine .bind .take fun pending => .bind (getIter_agrees hj h trivial) fun it =>
      .bind (releaseAll_agrees hj _) fun _ => .bind (clear_agrees hj) fun _ =>
        .bind (putBack_agrees hj pending trivial) fun _ => .pure _
  exact hprobe.unmoved fun _ _ _ run => isIterable_pending run

theorem lengthHint_agrees (h : Handle) :
    b.Agrees env env' pre (lengthHint h) fun _ => pre := by
  have hprobe : b.Agrees env env' pre (lengthHint h) fun _ => False := by
    refine .payload fun found hfound => ?_
    split
    · rename_i d s
      cases hslot : d.lengthHint with
      | none => exact (Agrees.pure none).anyhow
      | some slot =>
        have huser := (hfound _ rfl).descriptor (P := fun d => ∀ slot, d.lengthHint = some slot →
          ∀ code, slot ≠ .user code) (by rintro _ ⟨⟩; nofun) nofun
        exact .bind .take fun pending =>
          .bind (runHintSlot_agrees hj (huser.imp_right fun huser => huser _ hslot) h trivial)
            fun _ =>
            .bind (clear_agrees hj) fun _ => .bind (putBack_agrees hj pending trivial) fun _ =>
              .pure _
    · exact (Agrees.pure _).anyhow
    · exact (Agrees.pure none).anyhow
  exact hprobe.unmoved fun _ _ _ run => lengthHint_pending run

theorem setArgument_agrees (container : Handle) (index : Nat) (value : Handle) :
    b.Agrees env env' pre (setArgument container index value) fun _ => pre := by
  refine .bind (.heap _) fun found => ?_
  split
  · split
    · exact .bind (.setPayload _ (.builtin rfl)) fun _ => releaseAll_agrees hj _
    · exact .bind (hj.release _) fun _ => .fault nofun
  · exact .bind (hj.release _) fun _ => .fault nofun

/-- An object that a peer function gave is passed on only over a clear indicator. -/
theorem invoke_agrees (hcalls : b.calls) (callable arguments : Handle) (hpre : pre) :
    b.Agrees env env' pre (invoke callable arguments) fun o => o.isSome = true := by
  refine .bind (.heap _) fun found => ?_
  split
  · exact refuse_agrees hj _ _ hpre
  · refine .bind (.heap _) fun container => ?_
    split
    · split
      · exact refuse_agrees hj _ _ hpre
      · refine .bind (emit_agrees hj nofun) fun _ =>
          .bind (C := fun _ => False) (fun w w' hw hs => hj.hooks.call hcalls _ _ w w' hw (hs hpre))
            fun result => .bind .isSet fun set => ?_
        split
        · exact .answer fun _ => .inr rfl
        · exact .bind (emit_agrees hj nofun) fun _ => .refused
        · exact .bind (raise_agrees hj _ _ (.inr rfl)) fun _ =>
            .bind (emit_agrees hj nofun) fun _ => .refused
        · exact .bind (hj.release _) fun _ => .bind .take fun stray =>
            .bind (raise_agrees hj _ _ trivial) fun _ => .bind (emit_agrees hj nofun) fun _ =>
              .refused
    · exact refuse_agrees hj _ _ hpre
  · exact refuse_agrees hj _ _ hpre

end

/-- Elements come in alike, unless there is no room for one; giving a value back leaves the
indicator settled. -/
structure IntakeAgrees (b : Bond U) (env env' : Env U) (short : Prop) (p : Intake U α) : Prop where
  convert : ∀ h, b.AgreesUnless env env' short True (p.convert h) fun _ => False
  discard : ∀ {pre : Prop} (v : α), b.Agrees env env' pre (p.discard v) fun _ => pre

section

variable {p : Intake U α} (hj : b.Joins env env') (hp : b.IntakeAgrees env env' short p)

include hj hp

/-- A fetch that reports nothing leaves the indicator settled, if it was or if there is a new
element. -/
theorem fetch_agrees {c : Cursor α} (hc : c.current = none) :
    b.AgreesUnless env env' short pre (c.fetch p)
      fun r => r.2 = none ∧ (pre ∨ r.1.current.isSome = true) := by
  unfold Cursor.fetch
  split
  · exact .answer fun h => h.2.resolve_right (by simp [hc])
  · refine .bind .isSet fun set => ?_
    cases set with
    | true => exact .answer nofun
    | false =>
      refine .bind (iterNext_agrees hj _ (.inr rfl)) fun found => ?_
      cases found with
      | none =>
        refine .bind .isSet fun set => ?_
        cases set with
        | true => exact .answer nofun
        | false => exact .bind (emit_agrees hj nofun) fun _ => .answer fun _ => .inr rfl
      | some element =>
        refine .next (holding_agreesUnless hj _ ((hp.convert element).under fun _ => rfl))
          fun out => .bind .isSet fun set => ?_
        split
        · exact .answer fun _ => .inr rfl
        · refine .bind (C := fun _ => False) (holding_agrees hj _ ?_) fun _ =>
            .bind (hj.release _) fun _ => .bind (clear_agrees hj) fun _ =>
              .bind (emit_agrees hj nofun) fun _ => .answer nofun
          split
          · exact (hp.discard _).anyhow
          · exact (Agrees.pure ()).anyhow

theorem discardCurrent_agrees (c : Cursor α) :
    b.Agrees env env' pre (c.discardCurrent p) fun _ => pre := by
  unfold Cursor.discardCurrent
  split
  · exact .bind (holding_agrees hj _ (hj.release _)) fun _ => .bind (hp.discard _) fun _ => .pure _
  · exact .pure _

theorem drop_agrees (c : Cursor α) : b.Agrees env env' pre (c.drop p) fun _ => pre :=
  .bind (holding_agrees hj _ (discardCurrent_agrees hj hp c)) fun _ => hj.release _

omit hj hp in
theorem discardCurrent_yields (c : Cursor α) :
    (c.discardCurrent p).Answers fun c' => c'.current = none := by
  unfold Cursor.discardCurrent
  split
  · exact .bind fun _ => .bind fun _ => .pure rfl
  · exact .pure rfl

/-- An element that the cursor went on to leaves the indicator settled. -/
theorem advance_agrees (c : Cursor α) :
    b.AgreesUnless env env' short pre (c.advance p) fun r =>
      r.2 = none ∧ r.1.current.isSome = true := by
  unfold Cursor.advance
  split
  · exact .answer nofun
  · split
    · rename_i hnone
      exact .answer fun h => by simp_all
    · refine .next_yields (discardCurrent_agrees hj hp c).unless
        (.of_answers (discardCurrent_yields c)) fun c' hc' => ?_
      refine (fetch_agrees hj hp (c := { c' with position := c'.position + 1 }) hc').weaken ?_
      exact fun r h => ⟨h.1, .inr h.2⟩

/-- With nothing left to report the indicator stays settled. -/
theorem next_agrees (c : Cursor α) :
    b.AgreesUnless env env' short (c.pending = none) (c.next p)
      fun r => match r.2 with
        | some (.ok _) => r.1.pending = none
        | some (.error _) => False
        | none => True := by
  unfold Cursor.next
  split
  · exact .answer False.elim
  · rename_i hpending
    split
    · exact .answer fun _ => hpending
    · refine .bind (holding_agrees hj _ (hj.release _)) fun _ =>
        .next (holding_agreesUnless hj _ (fetch_agrees hj hp rfl)) fun r =>
          .answer fun hnone => ?_
      exact ⟨hnone, .inl hpending⟩

theorem begin_agrees (iterable : Handle) (hpre : pre) :
    b.AgreesUnless env env' short pre (View.begin p iterable) fun r => ∃ c, r = .ok c := by
  refine .bind (getIter_agrees hj iterable hpre) fun found => ?_
  cases found with
  | none =>
    refine .bind .isSet fun set => ?_
    cases set <;> exact .answer nofun
  | some iterator =>
    refine .bind (typeNameOf_agrees _) fun name => .bind (emit_agrees hj nofun) fun _ =>
      .next (holding_agreesUnless hj _ (fetch_agrees hj hp rfl)) fun r => ?_
    obtain ⟨c, failure⟩ := r
    cases failure with
    | some f => exact .bind (drop_agrees hj hp c) fun _ => .answer nofun
    | none => exact .answer fun _ => ⟨rfl, .inl rfl⟩

omit hp in
theorem abandon_agrees (iterator : Handle) (out : Array α) :
    b.Agrees env env' pre (View.abandon p iterator out) fun _ => pre :=
  releaseAll_agrees hj _

theorem drawFrom_agrees (c : Cursor α) (out : Array α) (hpre : pre) :
    b.AgreesUnless env env' short pre (View.drawFrom p c out) fun r => ∃ vs, r = .ok vs := by
  refine (AgreesUnless.loop hj (I := fun s => s.1.pending = none) (fun s => ?_) (c, out)).under
    fun _ => hpre
  obtain ⟨c, out⟩ := s
  refine .next (.onFault (next_agrees hj hp c) (abandon_agrees hj _ _)) fun r => ?_
  match r with
  | (c, some (.ok v)) => exact .answer id
  | (c, some (.error f)) =>
    exact .bind (holding_agrees hj _ (drop_agrees hj hp c)) fun _ =>
      .bind (releaseAll_agrees hj _) fun _ => .answer nofun
  | (c, none) =>
    exact .bind (holding_agrees hj _ (drop_agrees hj hp c)) fun _ => .answer fun _ => trivial

theorem collect_agrees (iterable : Handle) (hpre : pre) :
    b.AgreesUnless env env' short pre (View.collect p iterable) fun r => ∃ vs, r = .ok vs := by
  refine .next (begin_agrees hj hp iterable hpre) fun r => ?_
  cases r with
  | error f => exact .answer nofun
  | ok c => exact drawFrom_agrees hj hp c #[] ⟨c, rfl⟩

/-- Visits leave any error; the pass only goes on over a clear indicator. -/
theorem tryForEach_agrees {visit : σ → α → Act U σ}
    (hvisit : ∀ s v, b.Agrees env env' True (visit s v) fun _ => False) (iterable : Handle) (s : σ)
    (hpre : pre) :
    b.AgreesUnless env env' short pre (View.tryForEach p visit iterable s) fun _ => False := by
  refine .next (begin_agrees hj hp iterable hpre) fun r => ?_
  cases r with
  | error f => exact .answer nofun
  | ok c =>
    refine (AgreesUnless.loop hj (I := fun s => s.1.current.isSome = true) (fun s => ?_) (c, s)).under
      fun _ => ⟨c, rfl⟩
    obtain ⟨c, s⟩ := s
    dsimp only
    split
    · exact .bind (drop_agrees hj hp c) fun _ => .answer nofun
    · rename_i v hv
      have hcurrent : c.current.isSome = true := by
        cases hc : c.current with
        | none => simp [Cursor.get?, hc] at hv
        | some _ => rfl
      refine .bind (.onFault ((hvisit s v).under fun _ => hcurrent) (drop_agrees hj hp c)) fun s =>
        .next (holding_agreesUnless hj _ (advance_agrees hj hp c)) fun r => ?_
      split
      · exact .answer fun h => ⟨rfl, h⟩
      · exact .bind (drop_agrees hj hp _) fun _ => .answer nofun

end

section

variable (hj : b.Joins env env')

/-- A client to which it makes no difference that an event happened on one side only. -/
def Deaf (b : Bond U) (env env' : Env U) : Prop :=
  ∀ e u u', b.client u u' → b.client (env.observe e u) u' ∧ b.client u (env'.observe e u')

theorem Holds.noted {w w' w₁ w₁' : World U} (hw : b.Holds w w') (hdeaf : b.Deaf env env')
    (hn : Noted env w w₁) (hn' : Noted env' w' w₁') : b.Holds w₁ w₁' := by
  have hleft : b.Holds w₁ w' := by
    induction hn with
    | nothing => exact hw
    | event _ e ih => exact ⟨ih.heap, ih.pending, ih.settings, (hdeaf e _ _ ih.client).1, ih.fits⟩
  induction hn' with
  | nothing => exact hleft
  | event _ e ih => exact ⟨ih.heap, ih.pending, ih.settings, (hdeaf e _ _ ih.client).2, ih.fits⟩

/-- How many elements are expected makes no difference to the passes over plain objects, unless there
is no room for as many. -/
def SizesAgree (b : Bond U) (env env' : Env U) (short : Prop) : Prop :=
  ∀ {α : Type} {p : Intake U α}, b.IntakeAgrees env env' short p → ∀ h,
    b.AgreesUnless env env' short True (View.collectSized p h) fun r => ∃ vs, r = .ok vs

/-- The second side asks for a length only where the first one does. -/
def AsksFirst (b : Bond U) : Prop :=
  ∀ {s s' : Settings}, b.settings s s' → s'.reserveFromHint = true → s.reserveFromHint = true

theorem overstates_of_holds {p : Intake U α} {w w' : World U} (hj : b.Joins env env')
    (hasks : b.AsksFirst) (hw : b.Holds w w') (full : View.Overstates p h env' w') :
    View.Overstates p h env w := by
  obtain ⟨on, count, w₁', hhint, full⟩ := full
  have hagrees : b.Agrees env env' False (lengthHint h) fun _ => False := lengthHint_agrees hj h
  have hout := hagrees w w' hw False.elim
  rw [hhint] at hout
  cases ho : lengthHint h env w <;> rw [ho] at hout
  case done found w₁ =>
    obtain ⟨rfl, -, -⟩ := hout
    exact ⟨hasks hw.settings on, count, w₁, ho, full⟩
  all_goals exact hout.elim

include hj

theorem collectSized_matches {p : Intake U α} (hp : b.IntakeAgrees env env' short p)
    (hdeaf : b.Deaf env env') (hasks : b.AsksFirst) {w w' : World U} (hw : b.Holds w w')
    (hs : b.Settled w) (stock : ∀ q, w.heap.payload? h = some q → q.Stock)
    (room : ¬View.Overstates p h env w) :
    b.Matches (fun r => ∃ vs, r = .ok vs) (View.collectSized p h env w)
      (View.collectSized p h env' w') ∨ short ∧ (View.collectSized p h env w).Overflows := by
  obtain ⟨w₁, hrun, hn⟩ := collectSized_noted stock room
  obtain ⟨w₁', hrun', hn'⟩ := collectSized_noted (w := w') (hw.heap ▸ stock)
    fun full => room (overstates_of_holds hj hasks hw full)
  rw [hrun, hrun']
  refine collect_agrees hj hp h trivial w₁ w₁' (hw.noted hdeaf hn hn') fun _ => ?_
  unfold Settled
  rwa [hn.kept.1]

theorem sizes_of_deaf (htame : ¬ b.wild) (hdeaf : b.Deaf env env') (hasks : b.AsksFirst) :
    b.SizesAgree env env' True := by
  intro α p hp h w w' hw hs
  have stock : ∀ q, w.heap.payload? h = some q → q.Stock := fun q hq =>
    ((hw.fits h q hq).resolve_left htame).stock
  by_cases full : View.Overstates p h env w
  · obtain ⟨w₁, hrun, -⟩ := collectSized_full stock full
    exact .inr ⟨trivial, hrun ▸ .fault w₁⟩
  · exact collectSized_matches hj hp hdeaf hasks hw (hs trivial) stock full

theorem sizes_of_settings (hreserve : ∀ {s s' : Settings}, b.settings s s' →
    s.reserveFromHint = s'.reserveFromHint) : b.SizesAgree env env' short := by
  intro α p hp h w w' hw hs
  have hroom : b.Agrees env env' True (View.reserveHinted p h) fun _ => True := by
    refine .bind (lengthHint_agrees hj h) fun count => ?_
    cases count with
    | some count => exact .reserve _ _
    | none => exact .pure ()
  unfold View.collectSized
  simp only [bind_run, Act.settings, ← hreserve hw.settings]
  split
  · exact AgreesUnless.bind hroom (fun _ => collect_agrees hj hp h trivial) w w' hw hs
  · exact collect_agrees hj hp h trivial w w' hw hs

end

section

variable (hj : b.Joins env env')

include hj

theorem make_agrees (h : Handle) : b.Agrees env env' pre (View.make h) fun _ => pre := by
  refine .bind (isIterable_agrees hj h) fun iterable => ?_
  split
  · exact .map _ (acquire_agrees hj h)
  · exact .bind (typeNameOf_agrees h) fun _ => .pure _

theorem makeCallable_agrees (h : Handle) :
    b.Agrees env env' pre (makeCallable h) fun _ => pre := by
  refine .bind (.bind (askPayload_agrees _ _) fun _ => .pure _) fun callable => ?_
  split
  · exact .map _ (acquire_agrees hj h)
  · exact .bind (typeNameOf_agrees h) fun _ => .pure _

theorem reflected_agrees (r : Except Failure α) (hpre : (∃ a, r = .ok a) → pre) :
    b.Agrees env env' pre (reflected r) fun o => o.isSome = true := by
  cases r with
  | ok a => exact .answer fun _ => hpre ⟨a, rfl⟩
  | error f => exact .bind (reflect_agrees hj f) fun _ => .refused

theorem expectTuple_agrees (h : Handle) (arity : Nat) (hpre : pre) :
    b.Agrees env env' pre (expectTuple h arity) fun o => o.isSome = true := by
  have htuple : b.Agrees env env' pre (tupleItems h) fun _ => pre := by
    refine .bind (.heap _) fun found => ?_
    split
    · exact .map _ (acquireBehind_agrees hj [] _)
    · exact .pure none
  refine .bind htuple fun items => ?_
  cases items with
  | none => exact refuseType_agrees hj h _ hpre
  | some items =>
    dsimp only
    split
    · exact .answer fun _ => hpre
    · exact .bind (holding_agrees hj _ (raise_agrees hj _ _ hpre)) fun _ =>
        forgo_agrees hj _

theorem intFromPeer_agrees (h : Handle) (hpre : pre) :
    b.Agrees env env' pre (intFromPeer h) fun o => o.isSome = true := by
  refine .bind (.bind (askPayload_agrees _ _) fun _ => .pure _) fun found => ?_
  cases found with
  | some v => exact .answer fun _ => hpre
  | none => exact refuseType_agrees hj h _ hpre

theorem collectObject_agrees (hsizes : b.SizesAgree env env' short) {p : Intake U α}
    (hp : b.IntakeAgrees env env' short p) (h : Handle) (hpre : pre) :
    b.AgreesUnless env env' short pre (collectObject p h) fun r => ∃ vs, r = .ok vs := by
  refine .bind (make_agrees hj h) fun r => ?_
  cases r with
  | error f => exact .answer nofun
  | ok iterable =>
    exact .next (holding_agreesUnless hj _ ((hsizes hp iterable).under fun _ => hpre)) fun out =>
      .bind (hj.release _) fun _ => .answer id

theorem intakeAgrees_of_no_deleter {convert : Handle → Act U (Option α)} (units : α → List Handle)
    (width : Nat) (hconvert : ∀ h, b.AgreesUnless env env' short True (convert h) fun _ => False) :
    b.IntakeAgrees env env' short ⟨convert, units, none, width⟩ where
  convert := hconvert
  discard := fun v => releaseAll_agrees hj (units v)

theorem fromPeer_agrees (t : NativeType) (hsizes : ¬t.Flat → b.SizesAgree env env' short)
    (h : Handle) (hpre : pre) :
    b.AgreesUnless env env' short pre (fromPeer t h) fun o => o.isSome = true := by
  induction t generalizing h pre with
  | i64 => exact (intFromPeer_agrees hj h hpre).unless
  | i32 | usize =>
    refine .bind_option (intFromPeer_agrees hj h hpre).unless .refused fun v => ?_
    dsimp only
    split
    · exact .answer fun _ => trivial
    · exact (refuse_agrees hj _ _ trivial).unless
  | f64 | text =>
    refine .bind (.bind (askPayload_agrees _ _) fun _ => .pure _) fun found => ?_
    cases found with
    | some x => exact .answer fun _ => hpre
    | none => exact (refuseType_agrees hj h _ hpre).unless
  | bool =>
    exact (Agrees.map _ ((Agrees.bind (askPayload_agrees _ _) fun _ => .pure _).weaken
      fun _ _ => hpre)).unless
  | unit => exact .answer fun _ => hpre
  | object => exact (shared_agrees hj h hpre).unless
  | option t ih =>
    refine .bind (.bind (askPayload_agrees _ _) fun _ => .pure _) fun isNone => ?_
    split
    · exact .answer fun _ => hpre
    · exact .bind_option (ih hsizes h hpre) .refused fun _ => .answer fun _ => trivial
  | pair s t ihs iht =>
    have hs : ¬s.Flat → b.SizesAgree env env' short := fun hflat => hsizes fun both => hflat both.1
    have ht : ¬t.Flat → b.SizesAgree env env' short := fun hflat => hsizes fun both => hflat both.2
    exact .bind_option (expectTuple_agrees hj h 2 hpre).unless .refused fun items =>
      .bind_option (holding_agreesUnless hj _ (ihs hs _ trivial)) (forgo_agrees hj _).unless
        fun x =>
      .bind_option (holding_agreesUnless hj _ (iht ht _ trivial)) (forgo_agrees hj _).unless
        fun y =>
      .bind (releaseAll_agrees hj _) fun _ => .answer fun _ => trivial
  | triple s t u ihs iht ihu =>
    have hs : ¬s.Flat → b.SizesAgree env env' short := fun hflat => hsizes fun all => hflat all.1
    have ht : ¬t.Flat → b.SizesAgree env env' short := fun hflat => hsizes fun all => hflat all.2.1
    have hu : ¬u.Flat → b.SizesAgree env env' short := fun hflat => hsizes fun all => hflat all.2.2
    exact .bind_option (expectTuple_agrees hj h 3 hpre).unless .refused fun items =>
      .bind_option (holding_agreesUnless hj _ (ihs hs _ trivial)) (forgo_agrees hj _).unless
        fun x =>
      .bind_option (holding_agreesUnless hj _ (iht ht _ trivial)) (forgo_agrees hj _).unless
        fun y =>
      .bind_option (holding_agreesUnless hj _ (ihu hu _ trivial)) (forgo_agrees hj _).unless
        fun z =>
      .bind (releaseAll_agrees hj _) fun _ => .answer fun _ => trivial
  | vec t ih =>
    have hsizes : b.SizesAgree env env' short := hsizes id
    exact .next (collectObject_agrees hj hsizes
      (intakeAgrees_of_no_deleter hj t.units t.width fun i =>
        (ih (fun _ => hsizes) i trivial).anyhow) h hpre) fun r => (reflected_agrees hj r id).unless
  | view _ =>
    exact .bind (make_agrees hj h) fun r => (reflected_agrees hj r fun _ => hpre).unless
  | callable =>
    exact .bind (makeCallable_agrees hj h) fun r => (reflected_agrees hj r fun _ => hpre).unless

theorem builtinIntake_agrees (t : NativeType) (hsizes : ¬t.Flat → b.SizesAgree env env' short) :
    b.IntakeAgrees env env' short (builtinIntake t) :=
  intakeAgrees_of_no_deleter hj t.units t.width fun h =>
    (fromPeer_agrees hj t hsizes h trivial).anyhow

theorem marshal_agrees (container : Handle) {arguments : List (Act U (Option Handle))}
    (harguments : ∀ a ∈ arguments, b.Agrees env env' True a fun _ => False) (index : Nat)
    (hpre : pre) :
    b.Agrees env env' pre (Callable.marshal container arguments index) fun r => r = none := by
  induction arguments generalizing index pre with
  | nil => exact .answer fun _ => hpre
  | cons argument rest ih =>
    refine .bind ((harguments argument List.mem_cons_self).under fun _ => hpre) fun out =>
      .bind .isSet fun set => ?_
    split
    · exact .bind (setArgument_agrees hj container index _) fun _ =>
        ih (fun a ha => harguments a (List.mem_cons_of_mem argument ha)) _ (.inr rfl)
    · exact .bind (releaseAll_agrees hj _) fun _ => .answer nofun

def ReturnsAgree (b : Bond U) (env env' : Env U) : Returns U α → Prop
  | .convert convert _ => ∀ h, b.Agrees env env' True (convert h) fun _ => False
  | .discard _ => True

theorem finish_agrees {returns : Returns U α} (hreturns : b.ReturnsAgree env env' returns)
    (result : Handle) (hpre : pre) :
    b.Agrees env env' pre (Callable.finish returns result) fun _ => False := by
  unfold Callable.finish
  split
  · exact .bind (hj.release result) fun _ => .answer nofun
  · refine .bind (holding_agrees hj _ ((hreturns result).under fun _ => hpre)) fun out =>
      .bind (holding_agrees hj _ (hj.release result)) fun _ => .bind .isSet fun set => ?_
    split
    · exact .answer nofun
    · exact .bind (clear_agrees hj) fun _ => .bind (emit_agrees hj nofun) fun _ =>
        .bind (releaseAll_agrees hj _) fun _ => .answer nofun

theorem call_agrees (hcalls : b.calls) (target : Handle) {arguments : List (Act U (Option Handle))}
    (harguments : ∀ a ∈ arguments, b.Agrees env env' True a fun _ => False) (units : List Handle)
    {returns : Returns U α} (hreturns : b.ReturnsAgree env env' returns) :
    b.Agrees env env' pre (Callable.call target arguments units returns) fun _ => False := by
  refine .bind .isSet fun set => ?_
  cases set with
  | true => exact .bind (releaseAll_agrees hj _) fun _ => .answer nofun
  | false =>
    refine .bind (alloc_agrees hj (.builtin rfl)) fun container =>
      .bind (holding_agrees hj _ (marshal_agrees hj container harguments 0 (.inr rfl)))
        fun failed => ?_
    cases failed with
    | some position =>
      exact .bind (holding_agrees hj _ (hj.release _)) fun _ => .bind (clear_agrees hj) fun _ =>
        .bind (emit_agrees hj nofun) fun _ => .bind (releaseAll_agrees hj _) fun _ => .answer nofun
    | none =>
      refine .bind (holding_agrees hj _ (releaseAll_agrees hj _)) fun _ =>
        .bind (holding_agrees hj _ (invoke_agrees hj hcalls target container rfl)) fun result =>
          .bind (holding_agrees hj _ (hj.release _)) fun _ => ?_
      cases result with
      | none => exact .answer nofun
      | some h => exact finish_agrees hj hreturns h rfl

theorem gather_agrees (mode : OutputMode) (items : List Handle) (hpre : pre) :
    b.Agrees env env' pre (gather mode items) fun _ => False := by
  have hmade (p : Payload) (hp : p.isNative = false) :
      b.Agrees env env' pre (.ok <$> alloc p : Act U (Except Failure Handle)) fun _ => False :=
    .map _ (alloc_agrees hj (.builtin hp)).anyhow
  unfold gather
  split
  · exact hmade _ rfl
  · refine .bind (newSet_agrees hj items hpre) fun made => ?_
    cases made <;> exact .answer nofun
  · refine .bind (newSet_agrees hj items hpre) fun made => ?_
    cases made <;> exact .answer nofun
  · exact hmade _ rfl
  · exact hmade _ rfl

theorem exportSource_agrees {t : NativeType} (source : Source t) {code : Option CodeId}
    (hcode : b.wild ∨ code = none) (mode : OutputMode) :
    b.Agrees env env' pre (exportSource source code mode) fun _ => False := by
  unfold exportSource
  split
  · exact .map _ (newAdapter_agrees hj source hcode).anyhow
  · refine .bind (convertAll_agrees hj _ (fun v => convertOut_agrees hj hcode t v trivial) source)
      fun r => ?_
    cases r with
    | error f => exact .answer nofun
    | ok items => exact gather_agrees hj mode items ⟨items, rfl⟩

end

end Bond

end Causeway
