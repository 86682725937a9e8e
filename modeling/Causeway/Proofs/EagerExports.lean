import Causeway.Proofs.Draining
/-!
# Finished containers

What becomes of a native sequence that is converted at once, by a converter that is a function of
the element: whenever it is asked, with the indicator clear, an element that has an image becomes an
object that shows as the image, and an element that has none fails, with no object or with an error
pending. What showing means is left open, but it lasts: while an object is kept, neither conversions
nor releases change what it shows as.
-/
set_option autoImplicit false

namespace Causeway

open Act

variable {U V α : Type}

/-- What user code leaves true of the heap while the units `K` are kept. -/
structure Env.Lasts (O : Ownership U) (code : Option CodeId) (t : NativeType) (env : Env U)
    (K : Multiset Handle) (P : Heap → Prop) : Prop where
  release : ∀ j E w, K ≤ E → Exact O ({j} + E) w → P w.heap →
    (env.release j w).Settles True fun _ w' => P w'.heap
  convert : ∀ v E w, K ≤ E → Exact O E w → w.pending = none → P w.heap →
    (convertOut code t v env w).Settles True fun _ w' => P w'.heap

def Showing (shows : V → Handle → Heap → Prop) (xs : List V) (ks : List Handle) (heap : Heap) :
    Prop :=
  List.Forall₂ (fun x k => shows x k heap) xs ks

variable {O : Ownership U} {astray : Prop} {code : Option CodeId} {t : NativeType} {env : Env U}
  {K K' E : Multiset Handle} {P P' : Heap → Prop} {shows : V → Handle → Heap → Prop}
  {w w' : World U}

namespace Env.Lasts

theorem const (q : Prop) : env.Lasts O code t K fun _ => q where
  release := fun j _ w _ _ h => (Outcome.Settles.any (env.release j w)).mono fun _ _ _ _ => h
  convert := fun v _ w _ _ _ h =>
    (Outcome.Settles.any (convertOut code t v env w)).mono fun _ _ _ _ => h

theorem and (h : env.Lasts O code t K P) (h' : env.Lasts O code t K' P') :
    env.Lasts O code t (K + K') fun heap => P heap ∧ P' heap where
  release := fun j E w hE hx hP =>
    (h.release j E w ((Multiset.le_add_right _ _).trans hE) hx hP.1).also
      (h'.release j E w ((Multiset.le_add_left _ _).trans hE) hx hP.2)
  convert := fun v E w hE hx clear hP =>
    (h.convert v E w ((Multiset.le_add_right _ _).trans hE) hx clear hP.1).also
      (h'.convert v E w ((Multiset.le_add_left _ _).trans hE) hx clear hP.2)

/-- A payload that nothing may change stays with an object that is kept. -/
theorem fixed (henv : env.Lawful O) {k : Handle} {p : Payload} (hp : ∀ q, ¬ p.Change q) :
    env.Lasts O code t {k} fun heap => heap.payload? k = some p := by
  have hpath {H H' E : Multiset Handle} {w w' : World U} (m : Path O .strict (H, w) (H', w'))
      (hx : Exact O (H + E) w) (hE : {k} ≤ E) (hk : w.heap.payload? k = some p) :
      w'.heap.payload? k = some p := by
    obtain ⟨q, hq, hchange⟩ := m.payload_kept hx (Multiset.singleton_le.1 hE) hk
    obtain rfl | ⟨c, hfirst, -⟩ := hchange.cases_head
    · exact hq
    · exact absurd hfirst (hp c)
  refine ⟨fun j E w hE hx hk => ?_, fun v E w hE hx _ hk => ?_⟩
  · exact ((Outcome.Settles.any _).conserved (henv.release .strict j w (hx.ready.of_frame E))).mono
      fun _ _ _ h => hpath h.2 hx hE hk
  · have hconserved := convertOut_conserves (d := .strict) code t v env henv w hx.idle
    exact ((Outcome.Settles.any _).conserved hconserved).mono
      fun _ _ _ h => hpath h.2 (by rwa [zero_add]) hE hk

/-- If every object goes on showing what it shows, so do many. -/
theorem showing (h : ∀ x k, env.Lasts O code t {k} (shows x k)) (xs : List V) (ks : List Handle) :
    env.Lasts O code t ↑ks (Showing shows xs ks) := by
  induction ks generalizing xs with
  | nil =>
    have hconst : Showing shows xs [] = fun _ => xs = [] :=
      funext fun _ => propext List.forall₂_nil_right_iff
    rw [hconst]
    exact .const _
  | cons k ks ih =>
    cases xs with
    | nil =>
      have hconst : Showing shows [] (k :: ks) = fun _ => False :=
        funext fun _ => propext (List.forall₂_nil_left_iff.trans (iff_false_intro nofun))
      rw [hconst]
      exact .const _
    | cons x xs =>
      have hcons : Showing shows (x :: xs) (k :: ks) =
          fun heap => shows x k heap ∧ Showing shows xs ks heap :=
        funext fun _ => propext List.forall₂_cons
      rw [hcons, coe_cons]
      exact (h x k).and (ih xs)

theorem release_settles (hl : env.Lasts O code t K P) (hs : env.Sheds O astray) {j : Handle}
    (hK : K ≤ E) (hx : Exact O ({j} + E) w) (hP : P w.heap) :
    (Causeway.release j env w).Settles astray fun _ w' =>
      w'.pending = w.pending ∧ Exact O E w' ∧ P w'.heap :=
  ((hs.release_settles (hx.ready.of_frame E)).also (hl.release j E w hK hx hP)).mono
    fun _ _ _ h => ⟨h.1.1, h.1.2.exact_spend hx, h.2⟩

/-- Giving units back leaves the indicator alone, and what lasts true. -/
theorem releaseAll_settles (hl : env.Lasts O code t K P) (hs : env.Sheds O astray)
    (js : List Handle) (hK : K ≤ E) (hx : Exact O (↑js + E) w) (hP : P w.heap) :
    (releaseAll js env w).Settles astray fun _ w' =>
      w'.pending = w.pending ∧ Exact O E w' ∧ P w'.heap := by
  suffices hrule : (releaseAll js env w).Settles astray fun _ w' =>
      w'.pending = w.pending ∧ Exact O (↑([] : List Handle) + E) w' ∧ P w'.heap from
    hrule.mono fun _ _ _ h => ⟨h.1, by simpa using h.2.1, h.2.2⟩
  refine releaseAll_rule (I := fun ks w' =>
      w'.pending = w.pending ∧ Exact O (↑ks + E) w' ∧ P w'.heap)
    (fun k ks w₁ h => ?_) js ⟨rfl, hx, hP⟩
  obtain ⟨hpending, hx₁, hP₁⟩ := h
  rw [coe_cons, add_assoc] at hx₁
  exact (hl.release_settles hs (hK.trans (Multiset.le_add_left E ↑ks)) hx₁ hP₁).mono
    fun _ w₂ _ h => ⟨h.1.trans hpending, h.2⟩

end Env.Lasts

def Renders (image : Option V) (shows : V → Handle → Heap → Prop) (out : Option Handle)
    (w : World U) : Prop :=
  match image with
  | some x => w.pending = none ∧ ∃ k, out = some k ∧ shows x k w.heap
  | none => out = none ∨ w.pending ≠ none

structure Env.Images (O : Ownership U) (astray : Prop) (code : Option CodeId) (t : NativeType)
    (image : t.Value → Option V) (shows : V → Handle → Heap → Prop) (env : Env U) : Prop where
  sheds : env.Sheds O astray
  spares : ∀ h, env.Spares O h .away
  convert : ∀ v E w, Exact O (↑(t.units v) + E) w → w.pending = none →
    (convertOut code t v env w).Settles astray fun out w' => Renders (image v) shows out w'
  lasts : ∀ x k, env.Lasts O code t {k} (shows x k)
  insert : ∀ x k p heap, heap.InOrder → shows x k heap → shows x k (heap.insert p).2
  state : ∀ x k h d s s' heap, heap.payload? h = some (.native d s) → shows x k heap →
    shows x k (heap.setPayload h (.native d s'))

variable {image : t.Value → Option V} (m : env.Images O astray code t image shows)

namespace Env.Images

include m

theorem convert_settles {v : t.Value} (hl : env.Lasts O code t K P) (hK : K ≤ E)
    (hx : Exact O (↑(t.units v) + E) w) (clear : w.pending = none) (hP : P w.heap) :
    (convertOut code t v env w).Settles astray fun out w' => Renders (image v) shows out w' ∧
      Exact O (↑out.toList + (↑(t.units v) + E)) w' ∧ P w'.heap := by
  have hconvert := (m.convert v E w hx clear).conserved
    (convertOut_conserves code t v env m.sheds.lawful w hx.idle)
  have hlasts := hl.convert v _ w (hK.trans (Multiset.le_add_left E _)) hx clear hP
  exact (hconvert.also hlasts).mono fun _ _ _ h => ⟨h.1.1, h.1.2.exact_join hx, h.2⟩

end Env.Images

/-- The values are converted one after the other, and each is given back as soon as it was. -/
inductive Conversions (code : Option CodeId) (env : Env U) :
    List t.Value → World U → List Handle → World U → Prop where
  | nil {w : World U} : Conversions code env [] w [] w
  | cons {v : t.Value} {vs : List t.Value} {k : Handle} {ks : List Handle} {w w₁ w₂ w' : World U}
      (made : convertOut code t v env w = .done (some k) w₁) (clear : w₁.pending = none)
      (returned : releaseAll (t.units v) env w₁ = .done () w₂)
      (rest : Conversions code env vs w₂ ks w') :
      Conversions code env (v :: vs) w (k :: ks) w'

def undo (converted left : List Handle) (index : Nat) : Act U (Except Failure α) := do
  holding left (releaseAll converted)
  Indicator.clear
  Act.emit (.conversionFailed .element index)
  releaseAll left
  pure (.error (.of (.elementConversion index)))

/-- Everything up to the index was converted, the element there was tried, and the run is the one
that only undoes. -/
inductive StopsAt (code : Option CodeId) (env : Env U) (items : List t.Value) (i : Nat)
    (w : World U) (run : List Handle → List Handle → Act U α) (out : Outcome U α) : Prop where
  | tried {v : t.Value} {ks : List Handle} {o : Option Handle} {w₁ w₂ : World U}
      (before : Conversions code env (items.take i) w ks w₁) (here : items[i]? = some v)
      (tried : convertOut code t v env w₁ = .done o w₂)
      (undone : out = run ks (o.toList ++ (items.drop i).flatMap t.units) env w₂)

theorem undo_settles (hs : env.Sheds O astray) {converted left : List Handle} {index : Nat}
    (hx : Exact O (↑left + (↑converted + E)) w) :
    (undo converted left index env w : Outcome U (Except Failure α)).Settles astray fun r w' =>
      r = .error (.of (.elementConversion index)) ∧ w'.pending = none ∧ Exact O E w' := by
  rw [add_left_comm] at hx
  have hfirst := holding_settles left (hs.releaseAll_settles converted (hx.ready.of_frame _))
  refine hfirst.bind fun _ w₁ _ h₁ => ?_
  have hx₁ := h₁.2.2.exact_spend hx
  obtain ⟨w₂, hclear, hnone, -⟩ := clear_run env w₁
  have hcleared := clear_conserves (O := O) (d := .strict) env hs.lawful w₁ hx₁.idle
  rw [hclear] at hcleared
  rw [bind_run, hclear]
  let w₃ : World U := { w₂ with client := env.observe (.conversionFailed .element index) w₂.client }
  have hx₃ : Exact O (↑left + E) w₃ :=
    ((Noted.event .nothing _).path hs.lawful).exact_aside (hcleared.1.exact_aside hx₁)
  change ((do releaseAll left; pure (.error (.of (.elementConversion index))) :
    Act U (Except Failure α)) env w₃).Settles astray _
  exact (hs.releaseAll_settles left (hx₃.ready.of_frame _)).bind fun _ w₄ _ h₄ =>
    ⟨rfl, h₄.1.trans hnone, h₄.2.exact_spend hx₃⟩

/-- Once it comes to undoing, the answer is a failure whatever was to be made of the objects. -/
theorem undo_then {β : Type} {converted left : List Handle} {index : Nat}
    (f : Except Failure α → Act U (Except Failure β))
    (hf : ∀ e, f (.error e) = pure (.error e)) :
    (undo converted left index >>= f) env w = undo converted left index env w := by
  unfold undo
  simp only [bind_run]
  cases holding left (releaseAll converted) env w with
  | fault c w₁ => rfl
  | unfinished => rfl
  | done _ w₁ =>
    obtain ⟨w₂, hclear, -⟩ := clear_run env w₁
    simp only [hclear, Act.emit]
    generalize releaseAll left env _ = out
    cases out with
    | done _ w₃ => exact congrFun (congrFun (hf _) env) w₃
    | fault c w₃ => rfl
    | unfinished => rfl

section

variable {items : List t.Value} {beyond : List Handle} {v : t.Value} {vs : List t.Value} {n : Nat}
  {acc : Array Handle}

theorem convertFrom_converted {k : Handle} {w₁ w₂ : World U}
    (made : convertOut code t v env w = .done (some k) w₁) (clear : w₁.pending = none)
    (returned : releaseAll (t.units v) env w₁ = .done () w₂) :
    convertFrom t.units (convertOut code t) beyond (v :: vs) n acc env w =
      convertFrom t.units (convertOut code t) beyond vs (n + 1) (acc.push k) env w₂ := by
  simp only [convertFrom, bind_run, onFault_done made, Indicator.isSet, clear, Option.isSome_none,
    onFault_done returned]

theorem convertFrom_tried {o : Option Handle} {w₁ : World U}
    (tried : convertOut code t v env w = .done o w₁) (fails : o = none ∨ w₁.pending ≠ none) :
    convertFrom t.units (convertOut code t) beyond (v :: vs) n acc env w =
      undo acc.toList (o.toList ++ (v :: vs).flatMap t.units ++ beyond) n env w₁ := by
  simp only [convertFrom, bind_run, onFault_done tried, Indicator.isSet]
  cases o with
  | none => rfl
  | some k =>
    obtain ⟨e, pending⟩ := Option.ne_none_iff_exists'.1 (fails.resolve_left (Option.some_ne_none k))
    rw [pending]
    rfl

theorem convertFrom_first {Q : Option Handle → World U → Prop}
    {R : Except Failure (List Handle) → World U → Prop}
    (first : (convertOut code t v env w).Settles astray Q)
    (next : ∀ o w₁, convertOut code t v env w = .done o w₁ → Q o w₁ →
      (convertFrom t.units (convertOut code t) beyond (v :: vs) n acc env w).Settles astray R) :
    (convertFrom t.units (convertOut code t) beyond (v :: vs) n acc env w).Settles astray R := by
  have hfirst : (holding ((v :: vs).flatMap t.units ++ beyond ++ acc.toList)
      (convertOut code t v) env w).Settles astray _ := holding_settles _ first
  refine hfirst.bind fun o w₁ _ h => ?_
  have hnext := next o w₁ h.1 h.2
  rwa [convertFrom, bind_run, onFault_done h.1] at hnext

theorem convertFrom_step {k : Handle} {w₁ : World U} {Q : World U → Prop}
    {R : Except Failure (List Handle) → World U → Prop}
    (made : convertOut code t v env w = .done (some k) w₁) (clear : w₁.pending = none)
    (returned : (releaseAll (t.units v) env w₁).Settles astray fun _ w₂ => Q w₂)
    (next : ∀ w₂, releaseAll (t.units v) env w₁ = .done () w₂ → Q w₂ →
      (convertFrom t.units (convertOut code t) beyond vs (n + 1) (acc.push k) env w₂).Settles
        astray R) :
    (convertFrom t.units (convertOut code t) beyond (v :: vs) n acc env w).Settles astray R := by
  have hrun : convertFrom t.units (convertOut code t) beyond (v :: vs) n acc env w = (do
      holding (vs.flatMap t.units ++ beyond ++ (acc.push k).toList) (releaseAll (t.units v))
      convertFrom t.units (convertOut code t) beyond vs (n + 1) (acc.push k)) env w₁ := by
    simp only [convertFrom, bind_run, onFault_done made, Indicator.isSet, clear, Option.isSome_none]
    rfl
  rw [hrun]
  exact (holding_settles _ returned).bind fun _ w₂ _ h => next w₂ h.1 h.2

/-- A run that stops does so one element later if one more was converted first. -/
theorem StopsAt.cons {k : Handle} {w₁ w₂ : World U} {i : Nat}
    (made : convertOut code t v env w = .done (some k) w₁) (clear : w₁.pending = none)
    (returned : releaseAll (t.units v) env w₁ = .done () w₂)
    (h : StopsAt code env vs i w₂
      (fun ks left => undo ((acc.push k).toList ++ ks) (left ++ beyond) (n + 1 + i))
      (convertFrom t.units (convertOut code t) beyond vs (n + 1) (acc.push k) env w₂)) :
    StopsAt code env (v :: vs) (i + 1) w
      (fun ks left => undo (acc.toList ++ ks) (left ++ beyond) (n + (i + 1)))
      (convertFrom t.units (convertOut code t) beyond (v :: vs) n acc env w) := by
  obtain ⟨before, here, tried, undone⟩ := h
  refine .tried (.cons made clear returned before) here tried ?_
  rw [convertFrom_converted made clear returned, undone]
  simp only [Array.toList_push, List.append_assoc, List.singleton_append, List.drop_succ_cons,
    add_assoc, add_comm 1]

/-- The unit that a conversion answers is kept with those it answered before. -/
theorem exact_pushed {k : Handle} (hx : Exact O (↑(some k).toList +
      (↑(t.units v) + (↑(vs.flatMap t.units) + (↑beyond + (↑acc.toList + E))))) w) :
    Exact O (↑(t.units v) +
      (↑(vs.flatMap t.units) + (↑beyond + (↑(acc.push k).toList + E)))) w := by
  rw [Array.toList_push, coe_append]
  refine Eq.mp (congrArg (fun H => Exact O H w) ?_) hx
  simp only [Option.toList_some, Multiset.coe_singleton]
  abel

theorem le_kept (K K' E : Multiset Handle) (ks : List Handle) : ↑ks ≤ K + (K' + (↑ks + E)) :=
  (Multiset.le_add_right _ E).trans ((Multiset.le_add_left _ _).trans (Multiset.le_add_left _ _))

include m

theorem convertFrom_nil_settles {ys : List V} (hx : Exact O (↑beyond + (↑acc.toList + E)) w)
    (clear : w.pending = none) (shown : Showing shows ys acc.toList w.heap) :
    (convertFrom t.units (convertOut code t) beyond [] n acc env w).Settles astray fun r w' =>
      w'.pending = none ∧ releaseAll beyond env w = .done () w' ∧ r = .ok acc.toList ∧
      Showing shows ys acc.toList w'.heap ∧ Exact O (↑acc.toList + E) w' := by
  have hrelease := (Env.Lasts.showing m.lasts ys acc.toList).releaseAll_settles m.sheds beyond
    (Multiset.le_add_right _ E) hx shown
  refine (holding_settles _ hrelease).bind fun _ w₁ _ h₁ => ?_
  obtain ⟨hreleased, hpending, hx₁, hshown₁⟩ := h₁
  exact ⟨hpending.trans clear, hreleased, rfl, hshown₁, hx₁⟩

theorem convertFrom_settles {xs ys : List V} {ending : List (Option V)}
    (split : items.map image = xs.map some ++ ending) (last : ending.head?.join = none)
    (hx : Exact O (↑(items.flatMap t.units) + (↑beyond + (↑acc.toList + E))) w)
    (clear : w.pending = none) (shown : Showing shows ys acc.toList w.heap) :
    (convertFrom t.units (convertOut code t) beyond items n acc env w).Settles astray fun r w' =>
      w'.pending = none ∧
      (ending = [] → ∃ ks w₁, Conversions code env items w ks w₁ ∧
        releaseAll beyond env w₁ = .done () w' ∧ r = .ok (acc.toList ++ ks) ∧
        Showing shows (ys ++ xs) (acc.toList ++ ks) w'.heap ∧
        Exact O (↑(acc.toList ++ ks) + E) w') ∧
      (ending ≠ [] → r = .error (.of (.elementConversion (n + xs.length))) ∧ Exact O E w' ∧
        StopsAt code env items xs.length w
          (fun ks left => undo (acc.toList ++ ks) (left ++ beyond) (n + xs.length))
          (convertFrom t.units (convertOut code t) beyond items n acc env w)) := by
  induction items generalizing xs ys n acc w with
  | nil =>
    obtain ⟨hxs, rfl⟩ := List.append_eq_nil_iff.1 split.symm
    obtain rfl := List.map_eq_nil_iff.1 hxs
    rw [List.flatMap_nil, Multiset.coe_nil, zero_add] at hx
    refine (convertFrom_nil_settles m hx clear shown).mono fun r w' _ h => ?_
    obtain ⟨hclear, hreleased, rfl, hshown, hx'⟩ := h
    refine ⟨hclear, fun _ => ⟨[], w, .nil, hreleased, ?_, ?_, ?_⟩, fun h => absurd rfl h⟩
    · rw [List.append_nil]
    · rwa [List.append_nil, List.append_nil]
    · rwa [List.append_nil]
  | cons v vs ih =>
    rw [List.flatMap_cons, coe_append, add_assoc] at hx
    have hlasts := Env.Lasts.showing m.lasts ys acc.toList
    refine convertFrom_first
      (m.convert_settles hlasts (le_kept _ _ E acc.toList) hx clear shown) fun o w₁ hrun h₁ => ?_
    obtain ⟨hanswer, hx₁, hshown₁⟩ := h₁
    cases xs with
    | nil =>
      -- the first that has no image is the next one
      obtain rfl : ending = image v :: vs.map image := split.symm
      have hnone : image v = none := last
      rw [hnone] at hanswer
      have hrun' : convertFrom t.units (convertOut code t) beyond (v :: vs) n acc env w = _ :=
        convertFrom_tried hrun hanswer
      rw [hrun']
      have hheld : Exact O (↑(o.toList ++ (v :: vs).flatMap t.units ++ beyond) +
          (↑acc.toList + E)) w₁ := by
        simpa only [List.flatMap_cons, coe_append, add_assoc] using hx₁
      refine (undo_settles m.sheds hheld).mono fun r w' _ h => ⟨h.2.1, nofun, fun _ => ?_⟩
      refine ⟨h.1, h.2.2, .tried .nil rfl hrun ?_⟩
      rw [List.append_nil]
      rfl
    | cons x xs =>
      obtain ⟨hsome, hrest⟩ := List.cons.inj split
      rw [hsome] at hanswer
      obtain ⟨clear₁, k, rfl, hshows⟩ := hanswer
      have hshown : Showing shows (ys ++ [x]) (acc.push k).toList w₁.heap := by
        rw [Array.toList_push]
        exact List.rel_append hshown₁ (.cons hshows .nil)
      have hreturn := (Env.Lasts.showing m.lasts (ys ++ [x]) (acc.push k).toList).releaseAll_settles
        m.sheds (t.units v) (le_kept _ _ E (acc.push k).toList) (exact_pushed hx₁) hshown
      refine convertFrom_step hrun clear₁ hreturn fun w₂ hreturned h₂ => ?_
      obtain ⟨hpending, hx₂, hshown₂⟩ := h₂
      refine (ih hrest hx₂ (hpending.trans clear₁) hshown₂).mono fun r w' _ h => ⟨h.1, ?_, ?_⟩
      · intro hall
        obtain ⟨ks, w₃, hconversions, hreleased, hr, hshown', hx'⟩ := h.2.1 hall
        simp only [Array.toList_push, List.append_assoc, List.singleton_append] at hr hshown' hx'
        exact ⟨k :: ks, w₃, .cons hrun clear₁ hreturned hconversions, hreleased, hr, hshown', hx'⟩
      · intro hsome
        obtain ⟨hr, hx', hstops⟩ := h.2.2 hsome
        refine ⟨hr.trans ?_, hx', .cons hrun clear₁ hreturned hstops⟩
        rw [List.length_cons, add_assoc, add_comm 1]

end

section

variable {xs : List V} {ks : List Handle}

theorem alloc_exact (henv : env.Lawful O) {p : Payload} (hp : p.units = ks)
    (hx : Exact O (↑ks + E) w) :
    ∃ s w', alloc p env w = .done s w' ∧ w'.heap = (w.heap.insert p).2 ∧
      w'.heap.payload? s = some p ∧ w'.pending = w.pending ∧ Exact O ({s} + E) w' := by
  obtain ⟨w', hrun, hpending, hheap⟩ := alloc_run p env w
  have hready : Ready O .strict ↑p.units w := by
    rw [hp]
    exact hx.ready.of_frame E
  have hout := alloc_conserves (O := O) (d := .strict) p env henv w hready
  rw [hrun, hp] at hout
  refine ⟨_, w', hrun, hheap, ?_, hpending, hout.1.exact_frame hx⟩
  rw [hheap, Heap.payload?, Heap.insert_entryAt? hx.inOrder, if_pos rfl]
  rfl

def OutputMode.isSet : OutputMode → Prop
  | .set | .frozenSet => True
  | .onDemand | .list | .tuple => False

def OutputMode.sequence : OutputMode → List Handle → Payload
  | .tuple, ks => .tuple (ks.map some)
  | _, ks => .list ks

include m in
/-- A list or a tuple has all the objects, which go on showing what they show. -/
theorem gather_sequence {mode : OutputMode} (ordered : ¬ mode.isSet)
    (hx : Exact O (↑ks + E) w) (shown : Showing shows xs ks w.heap) :
    ∃ s w', gather mode ks env w = .done (.ok s) w' ∧
      w'.heap.payload? s = some (mode.sequence ks) ∧ Showing shows xs ks w'.heap ∧
      w'.pending = w.pending ∧ Exact O ({s} + E) w' := by
  have hgather : gather mode ks = (.ok <$> alloc (mode.sequence ks) :
      Act U (Except Failure Handle)) := by
    cases mode with
    | list | onDemand | tuple => rfl
    | set | frozenSet => exact absurd trivial ordered
  have hunits : (mode.sequence ks).units = ks := by
    cases mode with
    | list | onDemand | set | frozenSet => rfl
    | tuple => simp [OutputMode.sequence, Payload.units]
  obtain ⟨s, w', hrun, hheap, hfound, hpending, hx'⟩ := alloc_exact m.sheds.lawful hunits hx
  refine ⟨s, w', ?_, hfound, ?_, hpending, hx'⟩
  · rw [hgather]
    change (alloc (mode.sequence ks) >>= fun h => pure (Except.ok h)) env w = _
    rw [bind_run, hrun]
    rfl
  · rw [hheap]
    exact shown.imp fun x k h => m.insert x k _ _ hx.inOrder h

def Unhashable (w : World U) : Prop :=
  ∃ name : String, w.pending = some ⟨.typeError, s!"unhashable type: '{name}'"⟩

def Hashes (shows : V → Handle → Heap → Prop) (hash : V → Option Key) : Prop :=
  ∀ x k heap, heap.InOrder → shows x k heap → heap.key? (heap.slots.size + 1) k = some (hash x)

variable {hash : V → Option Key} (hashed : Hashes shows hash)

include m in
/-- An item without a key ends it: all units are given back under a type error. -/
theorem unhashable_settles {h : Handle} {hs kept : List Handle} (clear : w.pending = none)
    (hx : Exact O (↑(h :: hs ++ kept) + E) w) :
    ((do
      holding (h :: hs ++ kept) (do raiseType s!"unhashable type: '{← typeNameOf h}'")
      releaseAll (h :: hs ++ kept)
      pure none : Act U (Option (List Handle))) env w).Settles astray fun o w' =>
        o = none ∧ Unhashable w' ∧ Exact O E w' := by
  obtain ⟨w₁, hraise, hpending, -⟩ :=
    raise_run .typeError s!"unhashable type: '{w.heap.typeName h}'" env clear
  have hraised : (do raiseType s!"unhashable type: '{← typeNameOf h}'" : Act U Unit) env w =
      .done () w₁ := hraise
  have hconserved := raise_conserves (O := O) (d := .strict) .typeError
    s!"unhashable type: '{w.heap.typeName h}'" env m.sheds.lawful w hx.idle
  rw [hraise] at hconserved
  have hx₁ := hconserved.1.exact_aside hx
  have hrelease := m.sheds.releaseAll_settles (h :: hs ++ kept) (hx₁.ready.of_frame _)
  rw [bind_run, holding, onFault_done hraised]
  exact hrelease.bind fun _ w₂ _ h₂ =>
    ⟨rfl, ⟨_, h₂.1.trans hpending⟩, h₂.2.exact_spend hx₁⟩

include m hashed in
theorem uniqueItems_settles {items : List Handle} (keys : List Key) (kept : List Handle)
    (hx : Exact O (↑items + (↑kept + E)) w) (clear : w.pending = none)
    (shown : Showing shows xs items w.heap) :
    (uniqueItems items keys kept env w).Settles astray fun o w' =>
      ((∀ x ∈ xs, hash x ≠ none) → ∃ new, o = some (kept ++ new) ∧ new.Sublist items ∧
        w'.pending = none ∧ Exact O (↑(kept ++ new) + E) w') ∧
      ((∃ x ∈ xs, hash x = none) → o = none ∧ Unhashable w' ∧ Exact O E w') := by
  induction items generalizing xs keys kept w with
  | nil =>
    obtain rfl := List.forall₂_nil_right_iff.1 shown
    rw [Multiset.coe_nil, zero_add] at hx
    refine ⟨fun _ => ⟨[], by rw [List.append_nil], List.nil_sublist _, clear, ?_⟩, by simp⟩
    rwa [List.append_nil]
  | cons h hs ih =>
    obtain ⟨x, xs, hshows, hrest, rfl⟩ := List.forall₂_cons_right_iff.1 shown
    have hkey : keyOf h env w = .done (hash x) w := by
      simp only [keyOf, bind_run, Act.heap, hashed x h w.heap hx.inOrder hshows]
      rfl
    rw [uniqueItems, bind_run, hkey]
    cases hhash : hash x with
    | none =>
      have hheld : Exact O (↑(h :: hs ++ kept) + E) w := by
        rwa [coe_append, add_assoc]
      exact (unhashable_settles m clear hheld).mono fun o w' _ h =>
        ⟨fun hall => absurd hhash (hall x (List.mem_cons_self ..)), fun _ => h⟩
    | some k =>
      have hmore : (∃ y ∈ x :: xs, hash y = none) → ∃ y ∈ xs, hash y = none := by
        rintro ⟨y, hy, hnone⟩
        refine ⟨y, (List.mem_cons.1 hy).resolve_left ?_, hnone⟩
        rintro rfl
        rw [hhash] at hnone
        cases hnone
      change ((if keys.contains k then _ else _ : Act U (Option (List Handle))) env w).Settles _ _
      split
      · rw [coe_cons, add_assoc] at hx
        have hkept : (↑hs : Multiset Handle) ≤ ↑hs + (↑kept + E) := Multiset.le_add_right _ _
        have hrelease := (Env.Lasts.showing m.lasts xs hs).release_settles m.sheds hkept hx hrest
        refine (holding_settles (hs ++ kept) hrelease).bind fun _ w₁ _ h₁ => ?_
        obtain ⟨-, hpending, hx₁, hrest₁⟩ := h₁
        refine (ih keys kept hx₁ (hpending.trans clear) hrest₁).mono fun o w' _ h =>
          ⟨fun hall => ?_, fun hno => h.2 (hmore hno)⟩
        obtain ⟨new, ho, hsub, hend⟩ := h.1 fun y hy => hall y (List.mem_cons_of_mem _ hy)
        exact ⟨new, ho, hsub.cons _, hend⟩
      · have hheld : Exact O (↑hs + (↑(kept ++ [h]) + E)) w := by
          refine Eq.mp (congrArg (fun H => Exact O H w) ?_) hx
          simp only [coe_cons, coe_append, Multiset.coe_singleton]
          abel
        refine (ih (keys ++ [k]) (kept ++ [h]) hheld clear hrest).mono fun o w' _ h =>
          ⟨fun hall => ?_, fun hno => h.2 (hmore hno)⟩
        obtain ⟨new, ho, hsub, hpending, hx'⟩ := h.1 fun y hy => hall y (List.mem_cons_of_mem _ hy)
        rw [List.append_assoc] at ho hx'
        exact ⟨_, ho, hsub.cons_cons _, hpending, hx'⟩

include m hashed in
theorem newSet_settles (hx : Exact O (↑ks + E) w) (clear : w.pending = none)
    (shown : Showing shows xs ks w.heap) :
    (newSet ks env w).Settles astray fun o w' =>
      ((∀ x ∈ xs, hash x ≠ none) → ∃ s kept, o = some s ∧ kept.Sublist ks ∧
        w'.heap.payload? s = some (.set kept) ∧ w'.pending = none ∧ Exact O ({s} + E) w') ∧
      ((∃ x ∈ xs, hash x = none) → o = none ∧ Unhashable w' ∧ Exact O E w') := by
  have hunique := uniqueItems_settles m hashed [] [] (by simpa using hx) clear shown
  refine hunique.bind fun o w₁ _ h => ?_
  by_cases hno : ∃ x ∈ xs, hash x = none
  · obtain ⟨rfl, hend⟩ := h.2 hno
    refine ⟨fun hall => ?_, fun _ => ⟨rfl, hend⟩⟩
    obtain ⟨x, hx, hnone⟩ := hno
    exact absurd hnone (hall x hx)
  · obtain ⟨kept, rfl, hsub, hpending, hx₁⟩ := h.1 fun x hx hnone => hno ⟨x, hx, hnone⟩
    rw [List.nil_append] at hx₁
    obtain ⟨s, w₂, hrun, -, hfound, hpending₂, hx₂⟩ :=
      alloc_exact (p := .set kept) m.sheds.lawful rfl hx₁
    have hset : (some <$> alloc (.set kept) : Act U (Option Handle)) env w₁ =
        .done (some s) w₂ := by
      change (alloc (.set kept) >>= fun h => pure (some h)) env w₁ = _
      rw [bind_run, hrun]
      rfl
    change ((some <$> alloc (.set kept) : Act U (Option Handle)) env w₁).Settles astray _
    rw [hset]
    exact ⟨fun _ => ⟨s, kept, rfl, hsub, hfound, hpending₂.trans hpending, hx₂⟩,
      fun hsome => absurd hsome hno⟩

theorem gather_set {mode : OutputMode} (unordered : mode.isSet) :
    gather mode ks = (do
      match ← newSet ks with
      | some h => pure (.ok h)
      | none => pure (.error .alreadyRaised) : Act U (Except Failure Handle)) := by
  cases mode with
  | set | frozenSet => rfl
  | onDemand | list | tuple => exact unordered.elim

end

section

variable {source : Source t} {mode : OutputMode}

theorem exportSource_eager (hmode : mode ≠ .onDemand) :
    exportSource source code mode = (do
      match ← convertAll t.units (convertOut code t) source with
      | .error f => pure (.error f)
      | .ok items => gather mode items : Act U (Except Failure Handle)) := by
  cases mode with
  | onDemand => exact absurd rfl hmode
  | list | tuple | set | frozenSet => rfl

variable (code env source) in
/-- Under a pending error nothing is converted: the sequence is given back, and that is all. -/
theorem exportSource_pending {e : Raised} (hmode : mode ≠ .onDemand)
    (pending : w.pending = some e) :
    exportSource source code mode env w = (do
      releaseAll source.units
      pure (.error .alreadyRaised) : Act U (Except Failure Handle)) env w := by
  rw [exportSource_eager hmode]
  simp only [convertAll, bind_run, Indicator.isSet, pending, Option.isSome_some, if_true,
    Source.units]
  cases releaseAll (source.stored.flatMap t.units) env w <;> rfl

variable (code env source) in
/-- A sequence that promises too much is given back, and that is all. -/
theorem exportSource_full (hmode : mode ≠ .onDemand) (clear : w.pending = none)
    (full : 2 ^ 63 ≤ source.hint * Handle.width) :
    exportSource source code mode env w =
      (holding source.units (Act.fault .capacityOverflow) : Act U (Except Failure Handle)) env w := by
  rw [exportSource_eager hmode]
  simp only [convertAll, bind_run, Indicator.isSet, clear, Option.isSome_none, Bool.false_eq_true,
    if_false, holding, onFault, reserve_fault full, Act.fault, Source.units]
  cases releaseAll (source.stored.flatMap t.units) env w <;> rfl

variable (code env source) in
theorem exportSource_clear (hmode : mode ≠ .onDemand) (clear : w.pending = none)
    (room : source.hint * Handle.width < 2 ^ 63) :
    exportSource source code mode env w = (do
      match ← convertFrom t.units (convertOut code t) (source.beyond.flatMap t.units) source.toList
        0 #[] with
      | .error f => pure (.error f)
      | .ok items => gather mode items : Act U (Except Failure Handle)) env w := by
  rw [exportSource_eager hmode]
  simp only [convertAll, bind_run, Indicator.isSet, clear, Option.isSome_none, Bool.false_eq_true,
    if_false, holding, onFault_done (reserve_done room env w)]

include m in
/-- Whatever the container is to be, its elements are converted first: all of them, or up to the
first that does not convert. -/
theorem exportSource_settles (hmode : mode ≠ .onDemand)
    (room : source.hint * Handle.width < 2 ^ 63) {xs : List V} {ending : List (Option V)}
    (split : source.toList.map image = xs.map some ++ ending) (last : ending.head?.join = none)
    (hx : Exact O (↑source.units + E) w) (clear : w.pending = none)
    {R : Except Failure Handle → World U → Prop}
    (whole : ending = [] → ∀ ks w₁ w₂, Conversions code env source.toList w ks w₁ →
      releaseAll (source.beyond.flatMap t.units) env w₁ = .done () w₂ →
      Showing shows xs ks w₂.heap → w₂.pending = none → Exact O (↑ks + E) w₂ →
      (gather mode ks env w₂).Settles astray R)
    (stopped : ending ≠ [] → ∀ w', w'.pending = none → Exact O E w' →
      StopsAt code env source.toList xs.length w
        (fun ks left => undo ks (left ++ source.beyond.flatMap t.units) xs.length)
        (exportSource source code mode env w) →
      R (.error (.of (.elementConversion xs.length))) w') :
    (exportSource source code mode env w).Settles astray R := by
  rw [source.units_eq, coe_append, add_assoc] at hx
  have hconvert : (convertFrom t.units (convertOut code t) (source.beyond.flatMap t.units)
      source.toList 0 #[] env w).Settles astray _ :=
    convertFrom_settles m split last (by simpa using hx) clear .nil
  have hrun := exportSource_clear code env source hmode clear room
  rw [hrun]
  refine hconvert.bind fun r w₂ hdone h => ?_
  obtain ⟨clear₂, hall, hstop⟩ := h
  by_cases hend : ending = []
  · obtain ⟨ks, w₁, hconversions, hreleased, rfl, hshown, hx₂⟩ := hall hend
    exact whole hend ks w₁ w₂ hconversions hreleased hshown clear₂ hx₂
  · obtain ⟨rfl, hx₂, hstops⟩ := hstop hend
    rw [Nat.zero_add]
    refine stopped hend w₂ clear₂ hx₂ ?_
    obtain ⟨before, here, tried, undone⟩ := hstops
    refine .tried before here tried ?_
    rw [hrun, bind_run, undone, Nat.zero_add]
    exact undo_then _ fun _ => rfl

end

end Causeway
