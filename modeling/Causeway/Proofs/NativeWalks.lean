import Causeway.Proofs.Draining
import Causeway.Proofs.RoundTrip
/-!
# Walks over native collections

Every pass over a native collection is one of an adapter of its own, over a copy of what the
collection stores. While the copy is made the state of the collection is away, and while an item is
converted that of the adapter is; both are back before anyone else looks.
-/
set_option autoImplicit false

namespace Causeway

open Act

variable {U : Type} {astray : Prop} {env : Env U} {base : Handle → Option HeapEntry}
  {own T : Multiset (Handle × HeapEntry)} {units V : Multiset Handle} {w : World U}
  {t : NativeType} {code : Option CodeId} {whole : Source t} {xs : List t.Value} {v : t.Value}
  {it obj e : Handle} {q : Payload} {i n : Nat}
  {Is : t.Value → Handle → Multiset (Handle × HeapEntry) → Multiset Handle → Prop}

/-- Outward conversions that succeed: each makes an object that stands for its item, with whatever
it takes along when it goes, and leaves all else as it was. -/
structure Converts (astray : Prop) (env : Env U) (base : Handle → Option HeapEntry)
    (code : Option CodeId) (xs : List t.Value) (n : Nat)
    (Is : t.Value → Handle → Multiset (Handle × HeapEntry) → Multiset Handle → Prop) : Prop where
  convert : ∀ {v own units} {w : World U}, v ∈ xs → Overlay base own units w.heap →
    w.pending = none → (convertOut code t v env w).Settles astray fun o w' => w'.pending = none ∧
      ∃ e T V, o = some e ∧ Is v e T V ∧ Overlay base (T + own) (V + units) w'.heap
  region : ∀ {v e T V}, v ∈ xs → Is v e T V → Parts (Region n) [e] T V

inductive Adapter.Before (code : Option CodeId) (whole : Source t) (i : Nat) : Payload → Prop where
  | ahead {s : Source t} (left : s.toList = whole.toList.drop i) :
      Before code whole i (.native .adapter (some (.adapter ⟨t, code, s, none, i⟩)))
  | ended (left : whole.toList.drop i = []) :
      Before code whole i (.native .adapter (some (.adapter ⟨t, code, .spent, some none, i⟩)))

namespace Adapter

theorem step_overlay {s rest : Source t} (deep : env.Deep 1)
    (hc : Converts astray env base code xs n Is) (hn : s.next? = some (v, rest)) (hv : v ∈ xs)
    (ho : Overlay base own (↑s.units + units) w.heap) (clear : w.pending = none) :
    ((⟨t, code, s, none, i⟩ : Adapter).step env w).Settles astray fun r w' => w'.pending = none ∧
      ∃ e T V, r = (⟨t, code, rest, none, i + 1⟩, some e) ∧ Is v e T V ∧
        Overlay base (T + own) (V + (↑rest.units + units)) w'.heap := by
  unfold step
  rw [bind_run]
  simp only [Indicator.isSet, clear, Option.isSome_none, Bool.false_eq_true, if_false, peek, hn]
  refine (holding_settles _ (hc.convert hv ho clear)).bind fun out w₁ _ h₁ => ?_
  obtain ⟨-, clear₁, e, T, V, rfl, his, ho₁⟩ := h₁
  rw [Source.next?_units hn, ← Multiset.coe_add] at ho₁
  have hsplit : Overlay base (T + own) (↑(t.units v) + (V + (↑rest.units + units))) w₁.heap :=
    ho₁.congr rfl (by abel)
  obtain ⟨w₂, hrelease, hpending₂, ho₂⟩ := releaseAll_shared (t.units v) deep hsplit
  rw [bind_run]
  simp only [Indicator.isSet, clear₁, Option.isSome_none]
  have hheld (hs : List Handle) : holding hs (releaseAll (t.units v)) env w₁ = .done () w₂ :=
    onFault_done hrelease
  simp only [advance, bind_run, hheld]
  exact ⟨hpending₂.trans clear₁, e, T, V, rfl, his, ho₂⟩

theorem stop_overlay {a : Adapter} (deep : env.Deep 1)
    (hat : Before code whole i (.native .adapter (some (.adapter a))))
    (hend : whole.toList.drop i = []) (ho : Overlay base own (↑a.units + units) w.heap)
    (clear : w.pending = none) :
    ∃ w', a.step env w = .done (⟨t, code, .spent, some none, i⟩, none) w' ∧ w'.pending = none ∧
      Overlay base own units w'.heap := by
  have hpeek : a.peek = (none, ⟨t, code, .spent, some none, i⟩, a.units) ∧ a.produced = i := by
    cases hat with
    | @ahead s left =>
      cases hn : s.next? with
      | none => simp [peek, hn, Adapter.units]
      | some r =>
        rw [hend, (Source.next?_some hn).1] at left
        cases left
    | ended left => exact ⟨rfl, rfl⟩
  obtain ⟨w₁, hrelease, hpending₁, ho₁⟩ := releaseAll_shared a.units deep ho
  refine ⟨{ w₁ with client := env.observe (.sequenceEnded i) w₁.client }, ?_,
    hpending₁.trans clear, ho₁⟩
  unfold step
  rw [bind_run]
  simp only [Indicator.isSet, clear, Option.isSome_none, Bool.false_eq_true, if_false, hpeek]
  rw [bind_run, holding, onFault_done hrelease]
  rfl

/-- The object of an adapter steps as the adapter does, whose state is away meanwhile. -/
theorem iterNext_overlay {a : Adapter}
    {R : Option Handle → Payload → Multiset (Handle × HeapEntry) → Multiset Handle → Prop}
    (ho : Overlay base ({(it, ⟨1, .native .adapter (some (.adapter a))⟩)} + own) units w.heap)
    (hstep : (a.step env (w.lending it)).Settles astray fun r w' => w'.pending = none ∧
      ∃ own' units', R r.2 (.native .adapter (some (.adapter r.1))) own' units' ∧
        Overlay base ({(it, ⟨1, .away⟩)} + own') units' w'.heap) :
    (iterNext it env w).Settles astray fun o w' => w'.pending = none ∧
      ∃ q own' units', R o q own' units' ∧
        Overlay base ({(it, ⟨1, q⟩)} + own') units' w'.heap := by
  have found := ho.payload?_own (h := it) (e := ⟨1, .native .adapter (some (.adapter a))⟩) (by simp)
  have hstate := withState_settles .adapter Option.toList found rfl (hstep.mono fun r w' _ h =>
    have ⟨_, own', units', _, ho'⟩ := h
    ⟨h, ho'.payload?_own (h := it) (e := ⟨1, .away⟩) (by simp)⟩)
  refine iterNext_settles found (hstate.mono ?_)
  rintro o w' - ⟨r, w₁, ⟨clear, own', units', hr, ho₁⟩, -, rfl, rfl⟩
  refine ⟨r.2, rfl, ⟨clear, _, own', units', hr, ho₁.setPayload_own _⟩, fun _ => ?_⟩
  simp [clear]

theorem units_fresh (s : Source t) (j : Nat) :
    (Payload.native .adapter (some (.adapter ⟨t, code, s, none, j⟩))).units = s.units := by
  simp [Payload.units, NativeState.units, Adapter.units]

theorem next_overlay {x : t.Value} (deep : env.Deep 1)
    (hc : Converts astray env base code whole.toList n Is) (hx : whole.toList[i]? = some x)
    (hat : Before code whole i q)
    (ho : Overlay base ({(it, ⟨1, q⟩)} + own) (↑q.units + units) w.heap)
    (clear : w.pending = none) :
    (iterNext it env w).Settles astray fun o w' => w'.pending = none ∧ ∃ e q' T V, o = some e ∧
      Before code whole (i + 1) q' ∧ Is x e T V ∧
      Overlay base ({(it, ⟨1, q'⟩)} + (T + own)) (↑q'.units + (V + units)) w'.heap := by
  cases hat with
  | ended left =>
    rw [← List.head?_drop, left] at hx
    cases hx
  | @ahead s left =>
    cases hn : s.next? with
    | none =>
      rw [← List.head?_drop, ← left, Source.next?_none hn] at hx
      cases hx
    | some r =>
      obtain ⟨y, rest⟩ := r
      rw [(Source.next?_some hn).1] at left
      obtain ⟨hy, hdrop⟩ := drop_eq_cons left
      cases hy.symm.trans hx
      rw [units_fresh] at ho
      have hstep := step_overlay (w := w.lending it) (i := i) deep hc hn
        (List.mem_of_getElem? hx) (ho.setPayload_own .away) clear
      refine (iterNext_overlay (R := fun o q' own' units' => ∃ e T V, o = some e ∧
        Before code whole (i + 1) q' ∧ Is x e T V ∧ own' = T + own ∧
          units' = ↑q'.units + (V + units)) ho (hstep.mono ?_)).mono ?_
      · rintro r w' - ⟨clear', e, T, V, rfl, his, ho'⟩
        refine ⟨clear', T + own, V + (↑rest.units + units), ⟨e, T, V, rfl, .ahead hdrop.symm, his,
          rfl, ?_⟩, ho'.congr (by abel) rfl⟩
        rw [units_fresh]
        abel
      · rintro o w' - ⟨clear', q', _, _, ⟨e, T, V, rfl, hat', his, rfl, rfl⟩, ho'⟩
        exact ⟨clear', e, q', T, V, rfl, hat', his, ho'⟩

theorem end_overlay (deep : env.Deep 1) (hend : whole.toList[i]? = none)
    (hat : Before code whole i q)
    (ho : Overlay base ({(it, ⟨1, q⟩)} + own) (↑q.units + units) w.heap)
    (clear : w.pending = none) :
    (iterNext it env w).Settles astray fun o w' => w'.pending = none ∧ o = none ∧
      ∃ q', Before code whole i q' ∧
        Overlay base ({(it, ⟨1, q'⟩)} + own) (↑q'.units + units) w'.heap := by
  have hdrop : whole.toList.drop i = [] := List.drop_eq_nil_of_le (List.getElem?_eq_none_iff.1 hend)
  obtain ⟨a, rfl⟩ : ∃ a, q = .native .adapter (some (.adapter a)) := by
    cases hat <;> exact ⟨_, rfl⟩
  obtain ⟨w₁, hrun, clear₁, ho₁⟩ := stop_overlay (w := w.lending it) deep hat hdrop
    (ho.setPayload_own .away) clear
  refine (iterNext_overlay (R := fun o q' own' units' => o = none ∧ Before code whole i q' ∧
    own' = own ∧ units' = ↑q'.units + units) ho ?_).mono ?_
  · rw [hrun]
    exact ⟨clear₁, own, units, ⟨rfl, .ended hdrop, rfl, (zero_add units).symm⟩, ho₁⟩
  · rintro o w' - ⟨clear', q', _, _, ⟨rfl, hat', rfl, rfl⟩, ho'⟩
    exact ⟨clear', rfl, q', hat', ho'⟩

end Adapter

/-- Where every item converts, the adapter is an iterator over the items. -/
theorem adapter_walk (deep : env.Deep (n + 2))
    (hc : Converts astray env base code whole.toList n Is) :
    Walk astray env base whole.toList (Adapter.Before code whole) Is where
  next := fun hx hat ho clear => Adapter.next_overlay (deep.of_le (by omega)) hc hx hat ho clear
  stop := fun hx hat ho clear => Adapter.end_overlay (deep.of_le (by omega)) hx hat ho clear
  element := fun hx his ho => release_overlay (deep.of_le (by omega)) (hc.region hx his) ho
  iterator := by
    intro i q it own units w hat ho
    have hdrops : q.Drops := by
      rintro d s rfl
      cases hat <;> rfl
    exact release_overlay (deep.of_le (by omega)) (.single (Region.of_units hdrops it)) ho

theorem copyAll_overlay {α : Type} (unitsOf : α → List Handle) (copy : α → Act U Unit)
    (vs : List α) (made : List Handle)
    (hcopy : ∀ v ∈ vs, ∀ {units} {w : World U}, Overlay base own units w.heap →
      ∃ w', copy v env w = .done () w' ∧ w'.pending = w.pending ∧
        Overlay base own (↑(unitsOf v) + units) w'.heap)
    (ho : Overlay base own units w.heap) :
    ∃ w', copyAll unitsOf copy made vs env w = .done () w' ∧ w'.pending = w.pending ∧
      Overlay base own (↑(vs.flatMap unitsOf) + units) w'.heap := by
  induction vs generalizing made units w with
  | nil => exact ⟨w, rfl, rfl, ho.congr rfl (zero_add units).symm⟩
  | cons v vs ih =>
    obtain ⟨w₁, hrun, hpending₁, ho₁⟩ := hcopy v List.mem_cons_self ho
    obtain ⟨w₂, hrest, hpending₂, ho₂⟩ := ih (made ++ unitsOf v)
      (fun v' hv' => hcopy v' (List.mem_cons_of_mem v hv')) ho₁
    refine ⟨w₂, ?_, hpending₂.trans hpending₁, ho₂.congr rfl ?_⟩
    · rw [copyAll, bind_run, holding, onFault_done hrun]
      exact hrest
    · rw [List.flatMap_cons, ← Multiset.coe_add]
      abel

theorem copyValue_overlay : (t : NativeType) → (v : t.Value) →
    (∀ h ∈ t.units v, ∃ e, base h = some e) → ∀ {own units} {w : World U},
    Overlay base own units w.heap → ∃ w', copyValue t v env w = .done () w' ∧
      w'.pending = w.pending ∧ Overlay base own (↑(t.units v) + units) w'.heap
  | .i64, _, _, _, units, w, ho | .i32, _, _, _, units, w, ho | .usize, _, _, _, units, w, ho
  | .f64, _, _, _, units, w, ho | .bool, _, _, _, units, w, ho | .text, _, _, _, units, w, ho
  | .unit, _, _, _, units, w, ho | .option _, none, _, _, units, w, ho =>
    ⟨w, rfl, rfl, ho.congr rfl (zero_add units).symm⟩
  | .object, h, alive, _, _, _, ho | .view _, h, alive, _, _, _, ho
  | .callable, h, alive, _, _, _, ho => by
    obtain ⟨e, he⟩ := alive h (List.mem_singleton_self h)
    obtain ⟨w', hrun, hpending, ho'⟩ := acquire_overlay ho he env
    refine ⟨w', ?_, hpending, ho'⟩
    rw [copyValue, bind_run, hrun]
    rfl
  | .option t, some v, alive, _, _, _, ho => copyValue_overlay t v alive ho
  | .pair a b, (x, y), alive, _, _, _, ho => by
    obtain ⟨w₁, hx, hpending₁, ho₁⟩ :=
      copyValue_overlay a x (fun h hh => alive h (List.mem_append_left _ hh)) ho
    obtain ⟨w₂, hy, hpending₂, ho₂⟩ :=
      copyValue_overlay b y (fun h hh => alive h (List.mem_append_right _ hh)) ho₁
    refine ⟨w₂, ?_, hpending₂.trans hpending₁, ho₂.congr rfl ?_⟩
    · rw [copyValue, bind_run, hx]
      exact onFault_done hy
    · rw [NativeType.units, ← Multiset.coe_add]
      abel
  | .triple a b c, (x, y, z), alive, _, _, _, ho => by
    obtain ⟨w₁, hx, hpending₁, ho₁⟩ := copyValue_overlay a x
      (fun h hh => alive h (List.mem_append_left _ (List.mem_append_left _ hh))) ho
    obtain ⟨w₂, hy, hpending₂, ho₂⟩ := copyValue_overlay b y
      (fun h hh => alive h (List.mem_append_left _ (List.mem_append_right _ hh))) ho₁
    obtain ⟨w₃, hz, hpending₃, ho₃⟩ := copyValue_overlay c z
      (fun h hh => alive h (List.mem_append_right _ hh)) ho₂
    refine ⟨w₃, ?_, hpending₃.trans (hpending₂.trans hpending₁), ho₃.congr rfl ?_⟩
    · rw [copyValue, bind_run, hx]
      dsimp only
      rw [bind_run, holding, onFault_done hy]
      exact onFault_done hz
    · rw [NativeType.units, ← Multiset.coe_add, ← Multiset.coe_add]
      abel
  | .vec t, vs, alive, _, _, _, ho =>
    copyAll_overlay t.units (copyValue t) vs [] (fun v hv _ _ ho =>
      copyValue_overlay t v (fun h hh => alive h (List.mem_flatMap.2 ⟨v, hv, hh⟩)) ho) ho

theorem copyCollection_overlay {c : Collection} (alive : ∀ h ∈ c.units, ∃ e, base h = some e)
    (ho : Overlay base own units w.heap) (env : Env U) :
    ∃ w', copyCollection c env w = .done c w' ∧ w'.pending = w.pending ∧
      Overlay base own (↑c.units + units) w'.heap := by
  have hcopy (v : c.elem.Value) (hv : v ∈ c.source.stored) {units : Multiset Handle} {w : World U}
      (ho : Overlay base own units w.heap) : ∃ w', copyValue c.elem v env w = .done () w' ∧
        w'.pending = w.pending ∧ Overlay base own (↑(c.elem.units v) + units) w'.heap :=
    copyValue_overlay c.elem v (fun h hh => alive h (List.mem_flatMap.2 ⟨v, hv, hh⟩)) ho
  obtain ⟨w', hrun, hpending, ho'⟩ :=
    copyAll_overlay c.elem.units (copyValue c.elem) c.source.stored [] hcopy ho
  refine ⟨w', ?_, hpending, ho'⟩
  rw [copyCollection, bind_run, hrun]
  rfl

theorem newAdapter_overlay (source : Source t) (code : Option CodeId)
    (ho : Overlay base own units w.heap) (env : Env U) :
    ∃ h w', newAdapter source code env w = .done h w' ∧ w'.pending = w.pending ∧
      Overlay base ({(h, ⟨1, .native .adapter (some (.adapter (.start source code)))⟩)} + own) units
        w'.heap :=
  alloc_overlay (w := { w with
    client := env.observe (.typeDescribed Descriptor.adapter.name StateKind.adapter.path)
      w.client }) ho _ env

/-- A collection that is asked for an iterator makes an adapter over a copy, and stays as it is. -/
theorem collection_opens
    (hobj : base obj = some ⟨n, .native .collection (some (.collection ⟨t, code, whole⟩))⟩)
    (alive : ∀ h ∈ whole.units, ∃ e, base h = some e) :
    Opens astray env base obj (Adapter.Before code whole) := by
  intro own units w ho clear
  have found := ho.payload?_base hobj
  -- while the copy is made the base is another one, in which the state of the collection is away
  let away : Payload := .native .collection none
  have hlent := ho.setPayload_base hobj away
  have halive (h : Handle) (hh : h ∈ whole.units) :
      ∃ e, Function.update base obj (some ⟨n, away⟩) h = some e := by
    by_cases hobj' : h = obj
    · rw [hobj', Function.update_self]
      exact ⟨_, rfl⟩
    · rw [Function.update_of_ne hobj']
      exact alive h hh
  obtain ⟨w₁, hcopy, hpending₁, ho₁⟩ := copyCollection_overlay
    (w := { w with heap := w.heap.setPayload obj away }) (c := ⟨t, code, whole⟩) halive hlent env
  have hback := ho₁.setPayload_base (Function.update_self obj _ base)
    (.native .collection (some (.collection ⟨t, code, whole⟩)))
  rw [Function.update_idem, ← hobj, Function.update_eq_self] at hback
  have hstate : withState obj .collection Collection.units (fun (c : Collection) => do
      let copy ← holding c.units (copyCollection c)
      pure (c, copy)) env w = .done (some ⟨t, code, whole⟩) { w₁ with
        heap := w₁.heap.setPayload obj
          (.native .collection (some (.collection ⟨t, code, whole⟩))) } := by
    refine withState_done .collection found rfl ?_
      (ho₁.payload?_base (Function.update_self obj _ base))
    rw [bind_run, holding, onFault_done hcopy]
    rfl
  obtain ⟨it, w₂, hnew, hpending₂, ho₂⟩ := newAdapter_overlay (w := { w₁ with
    heap := w₁.heap.setPayload obj (.native .collection (some (.collection ⟨t, code, whole⟩))) })
    whole code hback env
  have hrun : getIter obj env w = .done (some it) w₂ := by
    simp only [getIter, bind_run, Act.heap, found, Descriptor.collection, runIterSlot]
    rw [hstate]
    change (newAdapter whole code >>= fun h => pure (some h)) env _ = _
    rw [bind_run, hnew]
    rfl
  rw [hrun]
  refine ⟨hpending₂.trans (hpending₁.trans clear), it, _, rfl, .ahead rfl, ?_⟩
  rw [Adapter.units_fresh]
  exact ho₂

def NativeType.Became (t : NativeType) (n : Nat) (v : t.Value) (e : Handle)
    (T : Multiset (Handle × HeapEntry)) (V : Multiset Handle) : Prop :=
  Parts (Region n) [e] T V ∧ V = ↑(t.units v) ∧ t.Encodes (Held T) v e

theorem toPeer_converts (deep : env.Deep (n + 1)) (hsize : ∀ v ∈ xs, t.size v ≤ n)
    (hfits : ∀ v ∈ xs, t.Fits v) (room : ∀ v ∈ xs, t.Roomy v)
    (alive : ∀ v ∈ xs, ∀ h ∈ t.units v, ∃ e, base h = some e) :
    Converts astray env base none xs n (t.Became n) where
  convert := by
    intro v own units w hv ho clear
    have hdeep : env.Deep (t.size v + 1) := deep.of_le (Nat.succ_le_succ (hsize v hv))
    obtain ⟨o, w', hrun, h⟩ :=
      (toPeer_overlay t v (room v hv) hdeep (alive v hv) ho clear).exists_done
    rw [show convertOut none t v env w = _ from hrun]
    cases h with
    | refused overflow pending overlay => exact absurd (hfits v hv) overflow
    | @made e _ T fits clear' parts encodes overlay =>
      have hparts : Parts (Region n) [e] T ↑(t.units v) :=
        parts.mono fun _ _ _ hr => hr.of_le (hsize v hv)
      exact ⟨clear', e, T, _, rfl, ⟨hparts, rfl, encodes⟩, overlay⟩
  region := fun _ h => h.1

/-- Items without handles that went out by the builtin conversion come in again by it, whenever the
pass gets to them. -/
theorem fromPeer_reads (ht : t.Plain) (deep : env.Deep 2)
    (hsize : ∀ v ∈ xs, t.size v ≤ env.budget) (hfits : ∀ v ∈ xs, t.Fits v)
    (room : ∀ v ∈ xs, t.Roomy v) :
    Intake.Reads astray env base (builtinIntake t) xs (t.Became n) fun v => some (t.norm v) where
  convert := by
    intro v e T V own units w hv his ho clear
    obtain ⟨-, -, encodes⟩ := his
    have hheld := encodes.mono (fun _ _ => Held.left (T := own)) t v e
    obtain ⟨w', hrun, clear', hsame⟩ :=
      Encoded.restored ht deep (hsize v hv) (hfits v hv) (room v hv) hheld ho clear
    rw [show (builtinIntake t).convert e env w = _ from hrun]
    refine ⟨if_pos clear', (ho.rebase hsame).congr rfl ?_⟩
    simp only [unitsIf, builtinIntake, NativeType.Plain.units_eq t ht, Multiset.coe_nil, zero_add]
  discard := discard_plain ht _

end Causeway
