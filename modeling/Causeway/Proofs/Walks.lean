import Causeway.Proofs.CursorPlaces
import Causeway.Proofs.Overlay
/-!
# Walks

What a pass needs of an iterator and of a converter, said of the part of the heap that is the
pass's own: its iterator, the element it has cached, and the units these own. Whatever else was made
since the base stays beside it, so the pass goes the same way in whatever company.
-/
set_option autoImplicit false

namespace Causeway

open Act

variable {U α γ : Type} {astray : Prop} {env : Env U} {base : Handle → Option HeapEntry}
  {own T S : Multiset (Handle × HeapEntry)} {units V W : Multiset Handle} {w w' : World U}
  {xs : List γ} {At : Nat → Payload → Prop} {p : Intake U α} {f : γ → Option α} {it e : Handle}
  {q : Payload} {x : γ} {v : α} {i : Nat}
  {Is : γ → Handle → Multiset (Handle × HeapEntry) → Multiset Handle → Prop}

/-- An iterator over `xs`. `At i` is what its object holds before the element at `i`, and `Is x e`
that the object `e` stands for the element `x`, what it owns included. -/
structure Walk (astray : Prop) (env : Env U) (base : Handle → Option HeapEntry) (xs : List γ)
    (At : Nat → Payload → Prop)
    (Is : γ → Handle → Multiset (Handle × HeapEntry) → Multiset Handle → Prop) : Prop where
  next : ∀ {i x q it own units} {w : World U}, xs[i]? = some x → At i q →
    Overlay base ({(it, ⟨1, q⟩)} + own) (↑q.units + units) w.heap → w.pending = none →
    (iterNext it env w).Settles astray fun o w' => w'.pending = none ∧ ∃ e q' T V, o = some e ∧
      At (i + 1) q' ∧ Is x e T V ∧
      Overlay base ({(it, ⟨1, q'⟩)} + (T + own)) (↑q'.units + (V + units)) w'.heap
  stop : ∀ {i q it own units} {w : World U}, xs[i]? = none → At i q →
    Overlay base ({(it, ⟨1, q⟩)} + own) (↑q.units + units) w.heap → w.pending = none →
    (iterNext it env w).Settles astray fun o w' => w'.pending = none ∧ o = none ∧ ∃ q', At i q' ∧
      Overlay base ({(it, ⟨1, q'⟩)} + own) (↑q'.units + units) w'.heap
  element : ∀ {x e T V own units} {w : World U}, x ∈ xs → Is x e T V →
    Overlay base (T + own) (V + units) w.heap →
    ∃ w', release e env w = .done () w' ∧ w'.pending = w.pending ∧ Overlay base own units w'.heap
  iterator : ∀ {i q it own units} {w : World U}, At i q →
    Overlay base ({(it, ⟨1, q⟩)} + own) (↑q.units + units) w.heap →
    ∃ w', release it env w = .done () w' ∧ w'.pending = w.pending ∧ Overlay base own units w'.heap

/-- A converter that goes by the element: what comes of one is `f`, whether it fails by itself or by
an error it leaves. Of all else it leaves the heap as it was. -/
structure Intake.Reads (astray : Prop) (env : Env U) (base : Handle → Option HeapEntry)
    (p : Intake U α) (xs : List γ)
    (Is : γ → Handle → Multiset (Handle × HeapEntry) → Multiset Handle → Prop)
    (f : γ → Option α) : Prop where
  convert : ∀ {x e T V own units} {w : World U}, x ∈ xs → Is x e T V →
    Overlay base (T + own) (V + units) w.heap → w.pending = none →
    (p.convert e env w).Settles astray fun o w' =>
      (if w'.pending = none then o else none) = f x ∧
      Overlay base (T + own) (unitsIf (fun v => ↑(p.units v)) o + (V + units)) w'.heap
  discard : ∀ {v own units} {w : World U}, Overlay base own (↑(p.units v) + units) w.heap →
    (p.discard v env w).Settles astray fun _ w' =>
      w'.pending = w.pending ∧ Overlay base own units w'.heap

def Opens (astray : Prop) (env : Env U) (base : Handle → Option HeapEntry) (obj : Handle)
    (At : Nat → Payload → Prop) : Prop :=
  ∀ {own units} {w : World U}, Overlay base own units w.heap → w.pending = none →
    (getIter obj env w).Settles astray fun o w' => w'.pending = none ∧ ∃ it q, o = some it ∧
      At 0 q ∧ Overlay base ({(it, ⟨1, q⟩)} + own) (↑q.units + units) w'.heap

namespace Cursor

inductive Brought (xs : List γ)
    (Is : γ → Handle → Multiset (Handle × HeapEntry) → Multiset Handle → Prop) (f : γ → Option α)
    (valueUnits : α → List Handle) (it : Handle) (i : Nat) :
    Cursor α × Option Failure → Nat → Multiset (Handle × HeapEntry) → Multiset Handle → Prop where
  | found {x : γ} {v : α} {e : Handle} {T : Multiset (Handle × HeapEntry)} {V : Multiset Handle}
      (item : xs[i]? = some x) (value : f x = some v) (stands : Is x e T V) :
      Brought xs Is f valueUnits it i (⟨it, some (e, v), i, false, none⟩, none) (i + 1) T
        (V + ↑(valueUnits v))
  | refused {x : γ} (item : xs[i]? = some x) (value : f x = none) :
      Brought xs Is f valueUnits it i
        (⟨it, none, i, true, none⟩, some (.of (.elementConversion i))) (i + 1) 0 0
  | ended (item : xs[i]? = none) :
      Brought xs Is f valueUnits it i (⟨it, none, i, true, none⟩, none) i 0 0

/-- An element that did not convert leaves, and so does a value that it was converted to. -/
theorem refuse_overlay (hw : Walk astray env base xs At Is) (hp : p.Reads astray env base xs Is f)
    (hx : x ∈ xs) (his : Is x e T V) (out : Option α)
    (ho : Overlay base (T + own) (unitsIf (fun v => ↑(p.units v)) out + (V + units)) w.heap)
    (c : Cursor α) (failure : Option Failure) :
    ((do
      holding [e] do
        match out with
        | some v => p.discard v
        | none => pure ()
      release e
      Indicator.clear
      Act.emit (.conversionFailed .element c.position)
      pure (c, failure) : Act U (Cursor α × Option Failure)) env w).Settles astray fun r w' =>
        w'.pending = none ∧ r = (c, failure) ∧ Overlay base own units w'.heap := by
  have hrest (act : Act U Unit) (hact : (act env w).Settles astray fun _ w' =>
      Overlay base (T + own) (V + units) w'.heap) :
      ((do
        holding [e] act
        release e
        Indicator.clear
        Act.emit (.conversionFailed .element c.position)
        pure (c, failure) : Act U (Cursor α × Option Failure)) env w).Settles astray fun r w' =>
          w'.pending = none ∧ r = (c, failure) ∧ Overlay base own units w'.heap := by
    refine (holding_settles [e] hact).bind fun _ w₁ _ h₁ => ?_
    obtain ⟨w₂, hrelease, -, ho₂⟩ := hw.element hx his h₁.2
    obtain ⟨w₃, hclear, hnone, hheap⟩ := clear_run env w₂
    rw [bind_run, hrelease]
    dsimp only
    rw [bind_run, hclear]
    exact ⟨hnone, rfl, hheap ▸ ho₂⟩
  cases out with
  | none =>
    have ho' : Overlay base (T + own) (V + units) w.heap := by simpa [unitsIf] using ho
    exact hrest (pure ()) ho'
  | some v => exact hrest (p.discard v) ((hp.discard ho).mono fun _ _ _ h => h.2)

theorem fetch_overlay (hw : Walk astray env base xs At Is) (hp : p.Reads astray env base xs Is f)
    (hat : At i q) (ho : Overlay base ({(it, ⟨1, q⟩)} + own) (↑q.units + units) w.heap)
    (clear : w.pending = none) :
    (fetch p ⟨it, none, i, false, none⟩ env w).Settles astray fun r w' => w'.pending = none ∧
      ∃ j q' T V, Brought xs Is f p.units it i r j T V ∧ At j q' ∧
        Overlay base ({(it, ⟨1, q'⟩)} + (T + own)) (↑q'.units + (V + units)) w'.heap := by
  unfold fetch
  simp only [Bool.false_eq_true, if_false]
  rw [bind_run]
  simp only [Indicator.isSet, clear, Option.isSome_none, Bool.false_eq_true, if_false]
  cases hxi : xs[i]? with
  | none =>
    refine (hw.stop hxi hat ho clear).bind fun o w₁ _ h₁ => ?_
    obtain ⟨clear₁, rfl, q', hat', ho₁⟩ := h₁
    simp only [bind_run, Indicator.isSet, clear₁, Option.isSome_none, Bool.false_eq_true, if_false]
    exact ⟨clear₁, i, q', 0, 0, .ended hxi, hat', by simpa using ho₁⟩
  | some x =>
    have hmem : x ∈ xs := List.mem_of_getElem? hxi
    refine (hw.next hxi hat ho clear).bind fun o w₁ _ h₁ => ?_
    obtain ⟨clear₁, e, q', T, V, rfl, hat', his, ho₁⟩ := h₁
    have hconvert := hp.convert hmem his (ho₁.congr (add_left_comm _ _ _) (add_left_comm _ _ _))
      clear₁
    refine (holding_settles [e] hconvert).bind fun out w₂ _ h₂ => ?_
    obtain ⟨-, hout, ho₂⟩ := h₂
    rw [bind_run]
    simp only [Indicator.isSet]
    have hrest := refuse_overlay hw hp hmem his out ho₂ ⟨it, none, i, true, none⟩
      (some (.of (.elementConversion i)))
    have hrefuse (hnone : f x = none) : Outcome.Settles astray (fun r w' => w'.pending = none ∧
        ∃ j q' T V, Brought xs Is f p.units it i r j T V ∧ At j q' ∧
          Overlay base ({(it, ⟨1, q'⟩)} + (T + own)) (↑q'.units + (V + units)) w'.heap) _ :=
      hrest.mono fun r w' _ h =>
        ⟨h.1, i + 1, q', 0, 0, h.2.1 ▸ .refused hxi hnone, hat', by simpa using h.2.2⟩
    cases hpending : w₂.pending with
    | some error =>
      rw [if_neg (by simp [hpending])] at hout
      cases out <;> exact hrefuse hout.symm
    | none =>
      rw [if_pos hpending] at hout
      cases out with
      | none => exact hrefuse hout.symm
      | some v =>
        refine ⟨hpending, i + 1, q', T, V + ↑(p.units v), .found hxi hout.symm his, hat',
          ho₂.congr (add_left_comm _ _ _) ?_⟩
        simp only [unitsIf]
        abel

inductive Rests (xs : List γ) (At : Nat → Payload → Prop)
    (Is : γ → Handle → Multiset (Handle × HeapEntry) → Multiset Handle → Prop)
    (valueUnits : α → List Handle) (vs : List α) :
    Place → Cursor α → Multiset (Handle × HeapEntry) → Multiset Handle → Prop where
  | on {i : Nat} {x : γ} {v : α} {it e : Handle} {q : Payload}
      {T : Multiset (Handle × HeapEntry)} {V : Multiset Handle} (item : xs[i]? = some x)
      (value : vs[i]? = some v) (stands : Is x e T V) (place : At (i + 1) q) :
      Rests xs At Is valueUnits vs (.on i) ⟨it, some (e, v), i, false, none⟩
        ({(it, ⟨1, q⟩)} + T) (↑q.units + (V + ↑(valueUnits v)))
  | owing {j : Nat} {it : Handle} {q : Payload} (place : At j q) :
      Rests xs At Is valueUnits vs .owing ⟨it, none, vs.length, true, some (Place.refusal vs)⟩
        {(it, ⟨1, q⟩)} ↑q.units
  | spent {j : Nat} {it : Handle} {q : Payload} (place : At j q) :
      Rests xs At Is valueUnits vs .spent ⟨it, none, vs.length, true, none⟩
        {(it, ⟨1, q⟩)} ↑q.units

theorem Brought.lands {r : Cursor α × Option Failure} {j : Nat}
    (hr : Brought xs Is f p.units it i r j T V) (hi : i ≤ (firstValues f xs).length)
    (hat : At j q) :
    (i < (firstValues f xs).length ∧ r.2 = none ∧ r.1.pending = none ∧
      Rests xs At Is p.units (firstValues f xs) (.on i) r.1 ({(it, ⟨1, q⟩)} + T)
        (↑q.units + V)) ∨
    (i = (firstValues f xs).length ∧ r.1 = ⟨it, none, i, true, none⟩ ∧ T = 0 ∧ V = 0 ∧
      r.2 = if (firstValues f xs).length < xs.length then some (Place.refusal (firstValues f xs))
        else none) := by
  have hcases := firstValues_cases f xs i hi
  cases hr with
  | @found x v e T V item value stands =>
    obtain ⟨x', v', hitem, hvalue, hv⟩ | ⟨_, x', hitem, hnone⟩ | ⟨_, hend⟩ := hcases
    · cases item.symm.trans hitem
      cases value.symm.trans hvalue
      exact .inl ⟨(List.getElem?_eq_some_iff.1 hv).1, rfl, rfl, .on item hv stands hat⟩
    · cases item.symm.trans hitem
      cases value.symm.trans hnone
    · rw [hend, List.getElem?_length] at item
      cases item
  | @refused x item value =>
    obtain ⟨x', v', hitem, hvalue, _⟩ | ⟨hlast, _⟩ | ⟨_, hend⟩ := hcases
    · cases item.symm.trans hitem
      cases value.symm.trans hvalue
    · have hlt := (List.getElem?_eq_some_iff.1 item).1
      rw [hlast] at hlt
      exact .inr ⟨hlast, rfl, rfl, rfl, by rw [if_pos hlt, hlast]; rfl⟩
    · rw [hend, List.getElem?_length] at item
      cases item
  | ended item =>
    obtain ⟨x', v', hitem, _⟩ | ⟨_, x', hitem, _⟩ | ⟨hlast, hend⟩ := hcases
    · cases item.symm.trans hitem
    · cases item.symm.trans hitem
    · exact .inr ⟨hlast, rfl, rfl, rfl, by rw [if_neg (by omega)]⟩

/-- On a value, moving on gives the element and its value up, and fetches the next one. -/
theorem advance_overlay (hw : Walk astray env base xs At Is)
    (hp : p.Reads astray env base xs Is f) (hxi : xs[i]? = some x) (his : Is x e T V)
    (hat : At (i + 1) q) (ho : Overlay base ({(it, ⟨1, q⟩)} + T + own)
      (↑q.units + (V + ↑(p.units v)) + units) w.heap) (clear : w.pending = none) :
    (advance p ⟨it, some (e, v), i, false, none⟩ env w).Settles astray fun r w' =>
      w'.pending = none ∧ ∃ j q' T V, Brought xs Is f p.units it (i + 1) r j T V ∧ At j q' ∧
        Overlay base ({(it, ⟨1, q'⟩)} + (T + own)) (↑q'.units + (V + units)) w'.heap := by
  have ho' : Overlay base (T + ({(it, ⟨1, q⟩)} + own))
      (V + (↑(p.units v) + (↑q.units + units))) w.heap := ho.congr (by abel) (by abel)
  obtain ⟨w₁, hrelease, hpending₁, ho₁⟩ := hw.element (List.mem_of_getElem? hxi) his ho'
  have hheld : holding (p.units v) (release e) env w = .done () w₁ := onFault_done hrelease
  have hrun : advance p ⟨it, some (e, v), i, false, none⟩ env w =
      (p.discard v >>= fun _ => fetch p ⟨it, none, i + 1, false, none⟩) env w₁ := by
    simp only [advance, discardCurrent, bind_run, hheld, Option.isNone_some, Bool.false_eq_true,
      if_false]
    cases p.discard v env w₁ <;> rfl
  rw [hrun]
  refine (hp.discard ho₁).bind fun _ w₂ _ h₂ => ?_
  exact fetch_overlay hw hp hat h₂.2 (h₂.1.trans (hpending₁.trans clear))

/-- On a value, drawing it gives the element up only, and fetches the next one beforehand. -/
theorem next_overlay (hw : Walk astray env base xs At Is)
    (hp : p.Reads astray env base xs Is f) (hxi : xs[i]? = some x) (his : Is x e T V)
    (hat : At (i + 1) q) (ho : Overlay base ({(it, ⟨1, q⟩)} + T + own)
      (↑q.units + (V + ↑(p.units v)) + units) w.heap) (clear : w.pending = none) :
    (next p ⟨it, some (e, v), i, false, none⟩ env w).Settles astray fun r w' =>
      w'.pending = none ∧ ∃ r' j q' T V, Brought xs Is f p.units it (i + 1) r' j T V ∧ At j q' ∧
        r = ({ r'.1 with pending := r'.2 }, some (.ok v)) ∧
        Overlay base ({(it, ⟨1, q'⟩)} + (T + own)) (↑q'.units + (V + (↑(p.units v) + units)))
          w'.heap := by
  have ho' : Overlay base (T + ({(it, ⟨1, q⟩)} + own))
      (V + (↑q.units + (↑(p.units v) + units))) w.heap := ho.congr (by abel) (by abel)
  obtain ⟨w₁, hrelease, hpending₁, ho₁⟩ := hw.element (List.mem_of_getElem? hxi) his ho'
  have hheld : holding (p.units v) (release e) env w = .done () w₁ := onFault_done hrelease
  have hfetch := fetch_overlay hw hp hat ho₁ (hpending₁.trans clear)
  have hrun : next p ⟨it, some (e, v), i, false, none⟩ env w =
      (holding (p.units v) (fetch p ⟨it, none, i + 1, false, none⟩) >>= fun r =>
        pure ({ r.1 with pending := r.2 }, some (.ok v))) env w₁ := by
    simp only [next, bind_run, hheld]
  rw [hrun]
  refine (holding_settles _ hfetch).bind fun r w₂ _ h₂ => ?_
  obtain ⟨-, clear₂, j, q', T', V', hr, hat', ho₂⟩ := h₂
  exact ⟨clear₂, r, j, q', T', V', hr, hat', rfl, ho₂⟩

/-- Whatever is called, the cursor moves as its place does, replies what the place says, and touches
nothing that is not its own. -/
theorem perform_overlay (hw : Walk astray env base xs At Is)
    (hp : p.Reads astray env base xs Is f) (call : Call) {place : Place} {c : Cursor α}
    (hc : Rests xs At Is p.units (firstValues f xs) place c T V)
    (ho : Overlay base (T + own) (V + units) w.heap) (clear : w.pending = none) :
    (perform p call c env w).Settles astray fun r w' => w'.pending = none ∧
      r.2 = (place.step (firstValues f xs) ((firstValues f xs).length < xs.length) call).2 ∧
      ∃ T' V', Rests xs At Is p.units (firstValues f xs)
        (place.step (firstValues f xs) ((firstValues f xs).length < xs.length) call).1 r.1 T' V' ∧
        Overlay base (T' + own) (V' + (↑(r.2.units p.units) + units)) w'.heap := by
  cases hc with
  | @on i x v it e q T V item value stands place =>
    have hle : i + 1 ≤ (firstValues f xs).length := (List.getElem?_eq_some_iff.1 value).1
    cases call with
    | advance =>
      refine (advance_overlay hw hp item stands place ho clear).bind fun r w' _ h => ?_
      obtain ⟨clear', j, q', T', V', hr, hat, ho'⟩ := h
      obtain ⟨hlt, hnone, _, hrests⟩ | ⟨hlast, hc', rfl, rfl, hfailure⟩ := hr.lands hle hat
      · simp only [Place.step, if_pos hlt]
        refine ⟨clear', congrArg Reply.advanced hnone, _, _, hrests, ho'.congr (by abel) ?_⟩
        simp only [Reply.units, Multiset.coe_nil]
        abel
      · have hstop : ¬ i + 1 < (firstValues f xs).length := by omega
        simp only [Place.step, if_neg hstop, decide_eq_true_eq]
        refine ⟨clear', congrArg Reply.advanced hfailure, {(it, ⟨1, q'⟩)}, ↑q'.units, ?_, ?_⟩
        · rw [hc', hlast]
          exact .spent hat
        · simpa [Reply.units] using ho'
    | next =>
      refine (next_overlay hw hp item stands place ho clear).bind fun r w' _ h => ?_
      obtain ⟨clear', r, j, q', T', V', hr, hat, rfl, ho'⟩ := h
      have hdrawn : (firstValues f xs)[i]?.map Except.ok = some (.ok v : Except Failure α) := by
        rw [value]
        rfl
      refine ⟨clear', congrArg Reply.drawn hdrawn.symm, ?_⟩
      obtain ⟨hlt, hnone, hpending, hrests⟩ | ⟨hlast, hc', rfl, rfl, hfailure⟩ := hr.lands hle hat
      · simp only [Place.step, if_pos hlt]
        rw [hnone, ← hpending]
        refine ⟨_, _, hrests, ho'.congr (by abel) ?_⟩
        simp only [Reply.units]
        abel
      · have hstop : ¬ i + 1 < (firstValues f xs).length := by omega
        simp only [Place.step, if_neg hstop, decide_eq_true_eq]
        rw [hc', hfailure, hlast]
        refine ⟨{(it, ⟨1, q'⟩)}, ↑q'.units, ?_, by simpa [Reply.units] using ho'⟩
        split
        · exact .owing hat
        · exact .spent hat
  | owing place =>
    cases call <;> exact ⟨clear, rfl, _, _, .spent place, by simpa [Reply.units] using ho⟩
  | spent place =>
    cases call <;> exact ⟨clear, rfl, _, _, .spent place, by simpa [Reply.units] using ho⟩

/-- Dropping a cursor gives back what it owns, and nothing else. -/
theorem drop_overlay (hw : Walk astray env base xs At Is)
    (hp : p.Reads astray env base xs Is f) {vs : List α} {place : Place} {c : Cursor α}
    (hc : Rests xs At Is p.units vs place c T V) (ho : Overlay base (T + own) (V + units) w.heap) :
    (c.drop p env w).Settles astray fun _ w' =>
      w'.pending = w.pending ∧ Overlay base own units w'.heap := by
  unfold drop
  cases hc with
  | @on i x v it e q T V item value stands place =>
    have ho' : Overlay base (T + ({(it, ⟨1, q⟩)} + own))
        (V + (↑(p.units v) + (↑q.units + units))) w.heap := ho.congr (by abel) (by abel)
    obtain ⟨w₁, hrelease, hpending₁, ho₁⟩ := hw.element (List.mem_of_getElem? item) stands ho'
    have hdiscard : (discardCurrent p ⟨it, some (e, v), i, false, none⟩ env w).Settles astray
        fun _ w' => w'.pending = w.pending ∧
          Overlay base ({(it, ⟨1, q⟩)} + own) (↑q.units + units) w'.heap := by
      have hheld : holding (p.units v) (release e) env w = .done () w₁ := onFault_done hrelease
      simp only [discardCurrent, bind_run, hheld]
      change ((p.discard v >>= fun _ => pure _) env w₁).Settles _ _
      refine (hp.discard ho₁).bind fun _ w₂ _ h₂ => ⟨h₂.1.trans hpending₁, h₂.2⟩
    refine (holding_settles [it] hdiscard).bind fun _ w₂ _ h₂ => ?_
    obtain ⟨w₃, hiterator, hpending₃, ho₃⟩ := hw.iterator place h₂.2.2
    rw [hiterator]
    exact ⟨hpending₃.trans h₂.2.1, ho₃⟩
  | owing place | spent place =>
    obtain ⟨w₁, hiterator, hpending₁, ho₁⟩ := hw.iterator place ho
    simp only [discardCurrent, bind_run, holding, onFault, pure_run, hiterator]
    exact ⟨hpending₁, ho₁⟩

/-- A pass begins on the first value, or at the end, or not at all if the first element has none. -/
theorem begin_overlay {obj : Handle} (hopens : Opens astray env base obj At)
    (hw : Walk astray env base xs At Is) (hp : p.Reads astray env base xs Is f)
    (ho : Overlay base own units w.heap) (clear : w.pending = none) :
    (View.begin p obj env w).Settles astray fun r w' => w'.pending = none ∧
      match r with
      | .error failure => firstValues f xs = [] ∧ xs ≠ [] ∧
        failure = .of (.elementConversion 0) ∧ Overlay base own units w'.heap
      | .ok c => (firstValues f xs = [] → xs = []) ∧ ∃ T V,
        Rests xs At Is p.units (firstValues f xs) (Place.begin (firstValues f xs)) c T V ∧
          Overlay base (T + own) (V + units) w'.heap := by
  unfold View.begin
  refine (hopens ho clear).bind fun o w₁ _ h₁ => ?_
  obtain ⟨clear₁, it, q, rfl, hat, ho₁⟩ := h₁
  simp only [typeNameOf, Act.heap, bind_run, Act.emit]
  let w₂ : World U :=
    { w₁ with client := env.observe (.iterationStarted (w₁.heap.typeName obj)) w₁.client }
  have hfetch := fetch_overlay (w := w₂) hw hp hat ho₁ clear₁
  refine (holding_settles [it] hfetch).bind fun r w₃ _ h₃ => ?_
  obtain ⟨-, clear₃, j, q', T, V, hr, hat', ho₃⟩ := h₃
  obtain ⟨c, failure⟩ := r
  obtain ⟨hlt, rfl, -, hrests⟩ | ⟨hlast, hc, rfl, rfl, hfailure⟩ := hr.lands (Nat.zero_le _) hat'
  · have hne : firstValues f xs ≠ [] := List.length_pos_iff.1 hlt
    refine ⟨clear₃, fun h => absurd h hne, {(it, ⟨1, q'⟩)} + T, ↑q'.units + V, ?_,
      ho₃.congr (by abel) (by abel)⟩
    rw [Place.begin, if_neg hne]
    exact hrests
  · have hnil : firstValues f xs = [] := List.eq_nil_of_length_eq_zero hlast.symm
    have hspent : Rests xs At Is p.units (firstValues f xs) .spent c {(it, ⟨1, q'⟩)} ↑q'.units := by
      rw [show c = _ from hc, hlast]
      exact .spent hat'
    cases failure with
    | none =>
      refine ⟨clear₃, fun _ => ?_, {(it, ⟨1, q'⟩)}, ↑q'.units, ?_, by simpa using ho₃⟩
      · by_contra hxs
        rw [if_pos (by simpa [hnil] using List.length_pos_iff.2 hxs)] at hfailure
        cases hfailure
      · rw [Place.begin, if_pos hnil]
        exact hspent
    | some failure =>
      have hxs : xs ≠ [] := by
        rintro rfl
        simp [firstValues] at hfailure
      rw [if_pos (by simpa [hnil] using List.length_pos_iff.2 hxs)] at hfailure
      refine (drop_overlay hw hp hspent (by simpa using ho₃)).bind fun _ w₄ _ h₄ => ?_
      refine ⟨h₄.1.trans clear₃, hnil, hxs, ?_, h₄.2⟩
      rw [Option.some.inj hfailure, hnil]
      rfl

end Cursor

section

variable {Q : α → World U → Prop} {obj : Handle}

/-- A loop that counts down comes to its end if it may go round often enough. -/
theorem loopFor_settles {β : Type} {body : β → Act U (β ⊕ α)} {I : Nat → β → World U → Prop}
    (round : ∀ m b w, I m b w → (body b env w).Settles astray fun r w' => match r with
      | .inl b' => ∃ k, m = k + 1 ∧ I k b' w'
      | .inr a => Q a w') {n m : Nat} {b : β} (hlt : m < n) (h : I m b w) :
    (loopFor body n b env w).Settles astray Q := by
  induction n generalizing m b w with
  | zero => omega
  | succ n ih =>
    have hround := round m b w h
    unfold loopFor
    cases hr : body b env w with
    | done r w' =>
      rw [hr] at hround
      cases r with
      | inl b' =>
        obtain ⟨k, rfl, hk⟩ := hround
        exact ih (by omega) hk
      | inr a => exact hround
    | fault c w' =>
      rw [hr] at hround
      exact hround
    | unfinished =>
      rw [hr] at hround
      exact hround

namespace Cursor

theorem next_of_perform {c : Cursor α} {P : Cursor α × Reply α → World U → Prop}
    (h : (perform p .next c env w).Settles astray P) :
    (c.next p env w).Settles astray fun r w' => P (r.1, .drawn r.2) w' := by
  change ((c.next p >>= fun r => pure (r.1, .drawn r.2)) env w).Settles astray P at h
  rw [bind_run] at h
  cases hr : c.next p env w with
  | done r w' =>
    rw [hr] at h
    exact h
  | fault c w' =>
    rw [hr] at h
    exact h
  | unfinished =>
    rw [hr] at h
    exact h

end Cursor

open Cursor (Rests)

def Place.drawn (vs : List α) (i : Nat) : Place := if i < vs.length then .on i else .spent

theorem drawFrom_overlay (hw : Walk astray env base xs At Is)
    (hp : p.Reads astray env base xs Is f) (hall : (firstValues f xs).length = xs.length)
    {c : Cursor α}
    (hc : Rests xs At Is p.units (firstValues f xs) (Place.drawn (firstValues f xs) 0) c T V)
    (ho : Overlay base (T + own) (V + units) w.heap) (clear : w.pending = none)
    (budget : xs.length < env.budget) :
    (View.drawFrom p c #[] env w).Settles astray fun r w' => r = .ok (firstValues f xs) ∧
      w'.pending = none ∧
      Overlay base own (↑((firstValues f xs).flatMap p.units) + units) w'.heap := by
  -- the number of values that are left goes down
  let I (m : Nat) (s : Cursor α × Array α) (w : World U) : Prop := w.pending = none ∧
    ∃ i T V, i + m = (firstValues f xs).length ∧ s.2.toList = (firstValues f xs).take i ∧
      Rests xs At Is p.units (firstValues f xs) (Place.drawn (firstValues f xs) i) s.1 T V ∧
      Overlay base (T + own) (V + (↑(((firstValues f xs).take i).flatMap p.units) + units)) w.heap
  refine loopFor_settles (I := I) (m := (firstValues f xs).length) ?_ (hall ▸ budget)
    ⟨clear, 0, T, V, by simp, by simp, hc, by simpa using ho⟩
  intro m s w hI
  obtain ⟨c, out⟩ := s
  obtain ⟨clear, i, T, V, hm, hout, hc, ho⟩ := hI
  have hnext := Cursor.next_of_perform (Cursor.perform_overlay hw hp .next hc ho clear)
  refine (onFault_settles _ hnext).bind fun r w₁ _ h₁ => ?_
  obtain ⟨c', reply⟩ := r
  obtain ⟨clear₁, hreply, T', V', hc', ho'⟩ := h₁
  have hnot : ¬ (firstValues f xs).length < xs.length := by omega
  by_cases hlt : i < (firstValues f xs).length
  · rw [Place.drawn, if_pos hlt] at hreply hc'
    simp only [Place.step, hnot, decide_false, Bool.false_eq_true, if_false] at hreply hc'
    rw [List.getElem?_eq_getElem hlt] at hreply
    cases hreply
    refine ⟨m - 1, by omega, clear₁, i + 1, T', V', by omega, ?_, hc', ho'.congr rfl ?_⟩
    · rw [Array.toList_push, hout, List.take_add_one, List.getElem?_eq_getElem hlt]
      rfl
    · rw [List.take_add_one, List.getElem?_eq_getElem hlt]
      simp only [Option.map_some, Cursor.Reply.units, Option.toList_some, List.flatMap_append,
        List.flatMap_cons, List.flatMap_nil, List.append_nil, ← Multiset.coe_add]
      abel
  · have hfull : (firstValues f xs).take i = firstValues f xs := List.take_of_length_le (by omega)
    rw [Place.drawn, if_neg hlt] at hreply hc'
    cases hreply
    rw [hfull] at hout ho'
    have hdrop := Cursor.drop_overlay hw hp hc' ho'
    refine (holding_settles _ hdrop).bind fun _ w₂ _ h₂ => ?_
    exact ⟨by rw [hout], h₂.2.1.trans clear₁, by simpa [Cursor.Reply.units] using h₂.2.2⟩

/-- A pass over a sequence all of whose elements have values collects these. -/
theorem collect_overlay (hopens : Opens astray env base obj At)
    (hw : Walk astray env base xs At Is) (hp : p.Reads astray env base xs Is f)
    (hall : (firstValues f xs).length = xs.length) (ho : Overlay base own units w.heap)
    (clear : w.pending = none) (budget : xs.length < env.budget) :
    (View.collect p obj env w).Settles astray fun r w' => r = .ok (firstValues f xs) ∧
      w'.pending = none ∧
      Overlay base own (↑((firstValues f xs).flatMap p.units) + units) w'.heap := by
  refine (Cursor.begin_overlay hopens hw hp ho clear).bind fun r w₁ _ h₁ => ?_
  obtain ⟨clear₁, h₁⟩ := h₁
  cases r with
  | error failure =>
    obtain ⟨hnil, hxs, -, -⟩ := h₁
    rw [hnil] at hall
    exact absurd (List.eq_nil_of_length_eq_zero hall.symm) hxs
  | ok c =>
    obtain ⟨-, T, V, hc, ho₁⟩ := h₁
    refine drawFrom_overlay hw hp hall ?_ ho₁ clear₁ budget
    have hplace : Place.begin (firstValues f xs) = Place.drawn (firstValues f xs) 0 := by
      cases firstValues f xs <;> simp [Place.begin, Place.drawn]
    rwa [hplace] at hc

/-- Iteration over the object would start, so a view of it is made, with a unit of its own. -/
theorem make_overlay {entry : HeapEntry} (hopens : Opens astray env base obj At)
    (hw : Walk astray env base xs At Is) (hobj : base obj = some entry)
    (ho : Overlay base own units w.heap) (clear : w.pending = none) :
    (View.make obj env w).Settles astray fun r w' => r = .ok obj ∧ w'.pending = none ∧
      Overlay base own ({obj} + units) w'.heap := by
  have hiterable : (isIterable obj env w).Settles astray fun r w' => r = true ∧
      w'.pending = none ∧ Overlay base own units w'.heap := by
    have htake : Indicator.take env w = .done none w := by
      obtain ⟨heap, pending, settings, client⟩ := w
      cases clear
      rfl
    unfold isIterable
    rw [bind_run, htake]
    refine (hopens ho clear).bind fun o w₁ _ h₁ => ?_
    obtain ⟨clear₁, it, q, rfl, hat, ho₁⟩ := h₁
    obtain ⟨w₂, hrelease, hpending₂, ho₂⟩ := hw.iterator hat ho₁
    obtain ⟨w₃, hclear, hnone, hheap⟩ := clear_run env w₂
    have hall : releaseAll (some it).toList env w₁ = .done () w₂ := by
      simp only [Option.toList_some, releaseAll, bind_run, onFault_done hrelease, pure_run]
    rw [bind_run, hall]
    dsimp only
    rw [bind_run, hclear]
    exact ⟨rfl, hnone, hheap ▸ ho₂⟩
  refine hiterable.bind fun r w₁ _ h₁ => ?_
  obtain ⟨rfl, clear₁, ho₁⟩ := h₁
  obtain ⟨w₂, hacquire, hpending₂, ho₂⟩ := acquire_overlay ho₁ hobj env
  have hrun : (Except.ok <$> acquire obj : Act U (Except Failure Handle)) env w₁ =
      .done (.ok obj) w₂ := by
    change (acquire obj >>= fun h => pure (Except.ok h)) env w₁ = _
    rw [bind_run, hacquire]
    rfl
  rw [if_pos rfl, hrun]
  exact ⟨rfl, hpending₂.trans clear₁, ho₂⟩

end

/-- An object stands for its element: one that a container holds is kept by it, one that was made of
a character is all there is of it. -/
def Item.Stands : Item → Handle → Multiset (Handle × HeapEntry) → Multiset Handle → Prop
  | .held h, e, T, V => e = h ∧ T = 0 ∧ V = {h}
  | .char c, e, T, V => T = {(e, ⟨1, .str (String.singleton c)⟩)} ∧ V = 0

section

variable {item : γ → Item} {body : Payload} {seq : Handle} {entry : HeapEntry}

def Payload.Before (seq : Handle) (body : Payload) (i : Nat) (q : Payload) : Prop :=
  q = .iterator seq (body.offset i)

theorem iterNext_overlay (hlists : body.Lists (xs.map item)) (hseq : base seq = some entry)
    (hbody : entry.payload = body)
    (hkept : ∀ h, .held h ∈ xs.map item → ∃ e, base h = some e) (hxi : xs[i]? = some x)
    (ho : Overlay base ({(it, ⟨1, .iterator seq (body.offset i)⟩)} + own) ({seq} + units) w.heap)
    (env : Env U) :
    ∃ e w' T V, iterNext it env w = .done (some e) w' ∧ w'.pending = w.pending ∧
      (item x).Stands e T V ∧
      Overlay base ({(it, ⟨1, .iterator seq (body.offset (i + 1))⟩)} + (T + own))
        ({seq} + (V + units)) w'.heap := by
  have hit := ho.payload?_own (h := it) (e := ⟨1, .iterator seq (body.offset i)⟩) (by simp)
  have hfound : w.heap.payload? seq = some body := hbody ▸ ho.payload?_base hseq
  have hitem : (xs.map item)[i]? = some (item x) := by simp [hxi]
  rw [iterNext_builtin hit hfound, hlists.stepAt, hitem]
  cases hx : item x with
  | held h =>
    obtain ⟨e, he⟩ := hkept h (hx ▸ List.mem_of_getElem? hitem)
    obtain ⟨w₁, hrun, hpending, ho₁⟩ := acquire_overlay ho he env
    have hit₁ := ho₁.payload?_own (h := it) (e := ⟨1, .iterator seq (body.offset i)⟩) (by simp)
    refine ⟨h, { w₁ with heap := w₁.heap.setPayload it (.iterator seq (body.offset (i + 1))) }, 0,
      {h}, ?_, hpending, ⟨rfl, rfl, rfl⟩, ?_⟩
    · simp only [Payload.stepTo, bind_run, hrun, moveTo_run hit₁]
      rfl
    · exact (ho₁.setPayload_own _).congr (by simp) (add_left_comm _ _ _)
  | char c =>
    obtain ⟨e, w₁, hrun, hpending, ho₁⟩ := alloc_overlay ho (.str (String.singleton c)) env
    have ho₁' := ho₁.congr (add_left_comm _ _ _) rfl
    have hit₁ := ho₁.payload?_own (h := it) (e := ⟨1, .iterator seq (body.offset i)⟩) (by simp)
    refine ⟨e, { w₁ with heap := w₁.heap.setPayload it (.iterator seq (body.offset (i + 1))) },
      {(e, ⟨1, .str (String.singleton c)⟩)}, 0, ?_, hpending, ⟨rfl, rfl⟩, ?_⟩
    · simp only [Payload.stepTo, bind_run, hrun, moveTo_run hit₁]
      rfl
    · exact (ho₁'.setPayload_own _).congr rfl (by simp)

theorem builtin_walk (deep : env.Deep 2) (hlists : body.Lists (xs.map item))
    (hseq : base seq = some entry) (hbody : entry.payload = body)
    (hkept : ∀ h, .held h ∈ xs.map item → ∃ e, base h = some e) :
    Walk astray env base xs (body.Before seq) fun x => (item x).Stands where
  next := by
    rintro i x _ it own units w hxi rfl ho clear
    obtain ⟨e, w', T, V, hrun, hpending, his, ho'⟩ :=
      iterNext_overlay hlists hseq hbody hkept hxi ho env
    rw [hrun]
    exact ⟨hpending.trans clear, e, _, T, V, rfl, rfl, his, ho'⟩
  stop := by
    rintro i _ it own units w hxi rfl ho clear
    have hit := ho.payload?_own (h := it) (e := ⟨1, .iterator seq (body.offset i)⟩) (by simp)
    have hfound : w.heap.payload? seq = some body := hbody ▸ ho.payload?_base hseq
    have hitem : (xs.map item)[i]? = none := by simpa using hxi
    rw [iterNext_builtin hit hfound, hlists.stepAt, hitem]
    exact ⟨clear, rfl, _, rfl, ho⟩
  element := by
    intro x e T V own units w hx his ho
    cases hitem : item x with
    | held h =>
      rw [hitem] at his
      obtain ⟨rfl, rfl, rfl⟩ := his
      exact release_shared deep (ho.congr (zero_add own) rfl)
    | char c =>
      rw [hitem] at his
      obtain ⟨rfl, rfl⟩ := his
      have hregion := Region.of_units (p := .str (String.singleton c)) (by simp [Payload.Drops]) e
      exact release_overlay deep (.single hregion) ho
  iterator := by
    rintro i _ it own units w rfl ho
    have hdrops : (Payload.iterator seq (body.offset i)).Drops := by simp [Payload.Drops]
    exact release_overlay deep (.single (Region.of_units hdrops it)) ho

theorem builtin_opens (hlists : body.Lists (xs.map item)) (hseq : base seq = some entry)
    (hbody : entry.payload = body) : Opens astray env base seq (body.Before seq) := by
  intro own units w ho clear
  have hfound : w.heap.payload? seq = some body := hbody ▸ ho.payload?_base hseq
  obtain ⟨w₁, hacquire, hpending₁, ho₁⟩ := acquire_overlay ho hseq env
  obtain ⟨it, w₂, halloc, hpending₂, ho₂⟩ := alloc_overlay ho₁ (.iterator seq 0) env
  rw [hlists.getIter_run hfound hacquire halloc]
  refine ⟨hpending₂.trans (hpending₁.trans clear), it, _, rfl, ?_, ho₂⟩
  rw [Payload.Before, hlists.offset_zero]

end

end Causeway
