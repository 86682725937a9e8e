import Causeway.Proofs.CallConservation
import Causeway.Proofs.Settling
/-!
# Arguments of a call

The container of a call fills up slot by slot, while user code that converts the arguments may do
anything to it but take slots away. Either every argument converts, or the first that does not is
the last that runs.
-/
set_option autoImplicit false

namespace Causeway

open Act

variable {U : Type} {O : Ownership U} {astray : Prop} {env : Env U} {w w₁ w' : World U}
  {E : Multiset Handle} {h target container : Handle} {name : String} {code : CodeId}

namespace Callable

variable {arity filled index : Nat}

/-- What a call keeps units on while user code runs: a function, and a tuple of which the first
slots are filled. -/
structure Underway (target container : Handle) (name : String) (code : CodeId)
    (arity filled : Nat) (w : World U) : Prop where
  function : w.heap.payload? target = some (.function name code)
  slots : ∃ slots : List (Option Handle), w.heap.payload? container = some (.tuple slots) ∧
    slots.length = arity ∧ ∀ i < filled, ∃ k, slots[i]? = some (some k)

theorem Underway.path {x y : Multiset Handle × World U}
    (hw : Underway target container name code arity filled x.2) (m : Path O .strict x y)
    (hx : Exact O (x.1 + E) x.2) (htarget : target ∈ E) (hcontainer : container ∈ E) :
    Underway target container name code arity filled y.2 := by
  obtain ⟨p, hp, hfunction⟩ := m.payload_kept hx htarget hw.function
  obtain ⟨slots, hslots, hlength, hfilled⟩ := hw.slots
  obtain ⟨q, hq, htuple⟩ := m.payload_kept hx hcontainer hslots
  obtain ⟨slots', rfl, hlength', hfilled'⟩ := Payload.tuple_kept htuple
  refine ⟨by rw [hp, Payload.function_kept hfunction], slots', hq, hlength'.trans hlength, ?_⟩
  intro i hi
  obtain ⟨k, hk⟩ := hfilled i hi
  exact hfilled' i k hk

/-- A slot of the container takes the value, however it was filled before. -/
theorem setArgument_settles (ht : env.Tame O astray) {value : Handle}
    (hx : Exact O ({value} + E) w) (htarget : target ∈ E) (hcontainer : container ∈ E)
    (hw : Underway target container name code arity index w) (hindex : index < arity) :
    (setArgument container index value env w).Settles astray fun _ w' =>
      w'.pending = w.pending ∧ Path O .strict ({value}, w) (0, w') ∧
        Underway target container name code arity (index + 1) w' := by
  obtain ⟨slots, hslots, hlength, hfilled⟩ := hw.slots
  obtain ⟨e, he, hpayload⟩ := (Heap.payload?_eq_some_iff _ _ _).1 hslots
  obtain ⟨previous, hprevious⟩ : ∃ previous, slots[index]? = some previous :=
    ⟨_, List.getElem?_eq_getElem (by omega)⟩
  let w₁ : World U :=
    { w with heap := w.heap.setPayload container (.tuple (slots.set index (some value))) }
  have hrun : setArgument container index value env w = releaseAll previous.toList env w₁ := by
    simp only [setArgument, bind_run, Act.heap, hslots, hprevious, Act.setPayload, Act.updateHeap]
    rfl
  have m : Path O .strict ({value}, w) (↑previous.toList, w₁) :=
    .single (.change hslots (.fill slots index value)
      (fill_units slots index previous value hprevious))
  have hpayload? : ∀ k, w₁.heap.payload? k =
      if k = container then some (.tuple (slots.set index (some value)))
      else w.heap.payload? k := fun k => by
    simp only [Heap.payload?, w₁, Heap.setPayload_entryAt? he]
    by_cases hk : k = container
    · simp [hk]
    · simp [hk]
  have hw₁ : Underway target container name code arity (index + 1) w₁ := by
    refine ⟨?_, _, by rw [hpayload?, if_pos rfl], by simpa using hlength, fun i hi => ?_⟩
    · -- the function is no tuple, so the write leaves it alone
      have hne : target ≠ container := by
        rintro rfl
        rw [hw.function] at hslots
        cases hslots
      rw [hpayload?, if_neg hne, hw.function]
    · by_cases hi' : i = index
      · subst hi'
        exact ⟨value, by rw [List.getElem?_set_self (by omega)]⟩
      · obtain ⟨k, hk⟩ := hfilled i (by omega)
        exact ⟨k, by rw [List.getElem?_set_ne (Ne.symm hi'), hk]⟩
  have hx₁ := m.exact_frame hx
  rw [hrun]
  refine (ht.releaseAll_settles previous.toList fun _ => ⟨E, hx₁⟩).mono fun _ w' _ h => ?_
  exact ⟨h.1, m.trans h.2, hw₁.path h.2 hx₁ htarget hcontainer⟩

/-- Arguments that all convert, from slot `index` on, each with the indicator clear before and
after. -/
inductive Converted (env : Env U) (container : Handle) :
    List (Act U (Option Handle)) → Nat → World U → World U → Prop where
  | nil {index : Nat} {w : World U} (clear : w.pending = none) :
      Converted env container [] index w w
  | cons {argument : Act U (Option Handle)} {rest : List (Act U (Option Handle))} {index : Nat}
      {h : Handle} {w w₁ w₂ w' : World U} (clear : w.pending = none)
      (ran : argument env w = .done (some h) w₁) (converts : w₁.pending = none)
      (placed : setArgument container index h env w₁ = .done () w₂)
      (tail : Converted env container rest (index + 1) w₂ w') :
      Converted env container (argument :: rest) index w w'

/-- Arguments of which the one for slot `position` is the first that does not convert: it yields
nothing or leaves an error pending. Those behind it do not run. -/
inductive Refused (env : Env U) (container : Handle) :
    List (Act U (Option Handle)) → (index position : Nat) → World U → World U → Prop where
  | here {argument : Act U (Option Handle)} {rest : List (Act U (Option Handle))} {index : Nat}
      {out : Option Handle} {w w₁ w' : World U} (clear : w.pending = none)
      (ran : argument env w = .done out w₁) (refuses : out = none ∨ w₁.pending ≠ none)
      (dropped : releaseAll out.toList env w₁ = .done () w') :
      Refused env container (argument :: rest) index index w w'
  | later {argument : Act U (Option Handle)} {rest : List (Act U (Option Handle))}
      {index position : Nat} {h : Handle} {w w₁ w₂ w' : World U} (clear : w.pending = none)
      (ran : argument env w = .done (some h) w₁) (converts : w₁.pending = none)
      (placed : setArgument container index h env w₁ = .done () w₂)
      (tail : Refused env container rest (index + 1) position w₂ w') :
      Refused env container (argument :: rest) index position w w'

theorem marshal_settles (ht : env.Tame O astray) {arguments : List (Act U (Option Handle))}
    {units : List Handle}
    (harguments : ∀ a ∈ arguments, a.Tame O astray env units fun o => ↑o.toList)
    (hx : Exact O E w) (hunits : ∀ h ∈ units, h ∈ E) (htarget : target ∈ E)
    (hcontainer : container ∈ E)
    (hw : Underway target container name code arity index w)
    (harity : index + arguments.length = arity) (clear : w.pending = none) :
    (marshal container arguments index env w).Settles astray fun o w' =>
      match o with
      | none => Converted env container arguments index w w' ∧ w'.pending = none ∧
          Path O .strict (0, w) (0, w') ∧ Underway target container name code arity arity w'
      | some position => Refused env container arguments index position w w' ∧
          Path O .strict (0, w) (0, w') := by
  induction arguments generalizing index w with
  | nil =>
    have hfull : index = arity := by simpa using harity
    subst hfull
    exact ⟨.nil clear, clear, .refl, hw⟩
  | cons argument rest ih =>
    have hargument := harguments argument List.mem_cons_self
    have alive : ∀ h ∈ units, w.heap.isAlive h = true := by
      intro h hh
      apply hx.isAlive
      rw [add_assoc, Multiset.mem_add]
      exact .inl (hunits h hh)
    refine (hargument.run ht.lawful hx clear alive).bind fun out w₁ ran hpath => ?_
    have hx₁ := hpath.exact_join hx
    have hrefuse : out = none ∨ w₁.pending ≠ none →
        ((do releaseAll out.toList; pure (some index) : Act U (Option Nat)) env w₁).Settles astray
          fun o w' => ∃ position, o = some position ∧
            Refused env container (argument :: rest) index position w w' ∧
              Path O .strict (0, w) (0, w') := fun refuses => by
      refine (ht.releaseAll_settles out.toList fun _ => ⟨E, hx₁⟩).bind fun _ w' dropped h => ?_
      exact ⟨index, rfl, .here clear ran refuses dropped, hpath.trans h.2⟩
    rw [bind_run]
    simp only [Indicator.isSet]
    cases hpending : w₁.pending with
    | some e =>
      have hout := hrefuse (.inr (by simp [hpending]))
      cases out <;> exact hout.mono fun o w' _ ⟨_, ho, h⟩ => by subst ho; exact h
    | none =>
      cases out with
      | none =>
        exact (hrefuse (.inl rfl)).mono fun o w' _ ⟨_, ho, h⟩ => by subst ho; exact h
      | some value =>
        have hw₁ := hw.path hpath (by rwa [zero_add]) htarget hcontainer
        have hplace := setArgument_settles ht hx₁ htarget hcontainer hw₁ (by
          rw [← harity, List.length_cons]
          omega)
        refine hplace.bind fun _ w₂ placed h => ?_
        obtain ⟨hkept, hpath₂, hw₂⟩ := h
        have hx₂ := hpath₂.exact_spend hx₁
        have hrest := ih (fun a ha => harguments a (List.mem_cons_of_mem _ ha)) hx₂ hw₂
          (by rw [← harity, List.length_cons]; omega) (hkept.trans hpending)
        refine hrest.mono fun o w' _ h => ?_
        cases o with
        | none =>
          obtain ⟨hconverted, hclear, hpath₃, hw₃⟩ := h
          exact ⟨.cons clear ran hpending placed hconverted, hclear,
            (hpath.trans hpath₂).trans hpath₃, hw₃⟩
        | some position =>
          exact ⟨.later clear ran hpending placed h.1, (hpath.trans hpath₂).trans h.2⟩

end Callable

end Causeway
