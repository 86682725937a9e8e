import Causeway.Proofs.Marshalling
/-!
# The exits of a call

Whatever converters and the called function do, a call leaves by one of a few exits, each with its
own rule for the indicator, and every exit says what ran on the way to it. User code is asked to
keep to the discipline and, where it takes the state of a dead object, to leave the indicator alone.
It may change everything else, the argument container included, and it need not come back: only
where all of it does, the call is said to.
-/
set_option autoImplicit false

namespace Causeway

open Act

variable {U α β : Type} {O : Ownership U} {astray : Prop} {env : Env U} {w w₁ w' : World U}
  {E : Multiset Handle} {h target container : Handle} {name : String} {code : CodeId}

namespace Callable

variable {arity : Nat}

theorem newArguments_settles (ht : env.Tame O astray) (hx : Exact O E w)
    (hfunction : w.heap.payload? target = some (.function name code)) (arity : Nat) :
    (newArguments arity env w).Settles astray fun container w' =>
      w'.pending = w.pending ∧ Path O .strict (0, w) ({container}, w') ∧
        Underway target container name code arity 0 w' := by
  obtain ⟨w', hrun, hpending, hheap⟩ := alloc_run (.tuple (List.replicate arity none)) env w
  have hout := newArguments_conserves (O := O) (d := .strict) arity env ht.lawful w hx.idle
  change newArguments arity env w = _ at hrun
  rw [hrun] at hout ⊢
  obtain ⟨e, he, hpayload⟩ := (Heap.payload?_eq_some_iff _ _ _).1 hfunction
  have hentry := Heap.insert_entryAt? hx.inOrder (.tuple (List.replicate arity none))
  have hne : target ≠ (w.heap.insert (.tuple (List.replicate arity none))).1 := by
    rintro rfl
    rw [Heap.insert_fresh hx.inOrder] at he
    cases he
  refine ⟨hpending, hout.1, ?_, List.replicate arity none, ?_, List.length_replicate, by simp⟩
  · refine (Heap.payload?_eq_some_iff _ _ _).2 ⟨e, ?_, hpayload⟩
    rw [hheap, hentry, if_neg hne, he]
  · refine (Heap.payload?_eq_some_iff _ _ _).2 ⟨⟨1, _⟩, ?_, rfl⟩
    rw [hheap, hentry, if_pos rfl]

theorem makeCallable_cases (h : Handle) (env : Env U) (w : World U) :
    (∃ w', makeCallable h env w = .done (.ok h) w' ∧ w'.pending = w.pending ∧
      ∀ k, w'.heap.payload? k = w.heap.payload? k) ∨
    ∃ name, makeCallable h env w = .done (.error (.of (.notCallable name))) w := by
  unfold makeCallable isCallable askPayload typeNameOf
  simp only [bind_run, Act.heap, pure_run]
  by_cases hf : ((w.heap.payload? h).map Payload.isFunction).getD false
  · have alive : w.heap.isAlive h = true := by
      cases hp : w.heap.payload? h with
      | none => simp [hp] at hf
      | some p =>
        obtain ⟨e, he, -⟩ := (Heap.payload?_eq_some_iff _ _ _).1 hp
        exact (Heap.isAlive_iff _ _).2 ⟨e, he⟩
    obtain ⟨w', hrun, hkept, hpayload⟩ := acquire_run env alive
    refine .inl ⟨w', ?_, hkept, hpayload⟩
    rw [if_pos hf]
    change (acquire h >>= fun h => pure (Except.ok h)) env w = _
    rw [bind_run, hrun]
    rfl
  · exact .inr ⟨_, by rw [if_neg hf]; rfl⟩

theorem filledSlots_of_filled (slots : List (Option Handle))
    (hfilled : ∀ i < slots.length, ∃ k, slots[i]? = some (some k)) (index : Nat) :
    ∃ hs : List Handle, slots = hs.map some ∧ filledSlots slots index = .ok hs := by
  induction slots generalizing index with
  | nil => exact ⟨[], rfl, rfl⟩
  | cons slot slots ih =>
    obtain ⟨k, hk⟩ := hfilled 0 (by simp)
    rw [List.getElem?_cons_zero, Option.some.injEq] at hk
    subst hk
    obtain ⟨hs, rfl, hrest⟩ := ih (fun i hi => by
      simpa using hfilled (i + 1) (by simpa using hi)) (index + 1)
    exact ⟨k :: hs, rfl, by simp [filledSlots, hrest, Except.map]⟩

/-- A function is invoked: its body runs once, on what the container holds. It answers an object
with the indicator clear, or an error is pending in the end, the body's own if it says no more. -/
inductive Invoked (env : Env U) (target container : Handle) (arity : Nat) :
    Option Handle → World U → World U → Prop where
  | answered {name : String} {code : CodeId} {hs : List Handle} {h : Handle} {w w' : World U}
      (function : w.heap.payload? target = some (.function name code))
      (slots : w.heap.payload? container = some (.tuple (hs.map some))) (length : hs.length = arity)
      (ran : env.hooks.call code hs { w with client := env.observe (.called name arity) w.client } =
        .done (some h) w')
      (clear : w'.pending = none) : Invoked env target container arity (some h) w w'
  | failed {name : String} {code : CodeId} {hs : List Handle} {out : Option Handle}
      {w w₁ w' : World U} (function : w.heap.payload? target = some (.function name code))
      (slots : w.heap.payload? container = some (.tuple (hs.map some))) (length : hs.length = arity)
      (ran : env.hooks.call code hs { w with client := env.observe (.called name arity) w.client } =
        .done out w₁)
      (fails : out = none ∨ w₁.pending ≠ none) (pending : w'.pending ≠ none)
      (kept : out = none → w₁.pending ≠ none → w'.pending = w₁.pending)
      (run : invoke target container env w = .done none w') :
      Invoked env target container arity none w w'

theorem invoke_settles (ht : env.Tame O astray) (hx : Exact O E w)
    (hw : Underway target container name code arity arity w) (clear : w.pending = none) :
    (invoke target container env w).Settles astray fun o w' =>
      Invoked env target container arity o w w' ∧ Path O .strict (0, w) (↑o.toList, w') := by
  obtain ⟨slots, hslots, hlength, hfilled⟩ := hw.slots
  obtain ⟨hs, rfl, hhs⟩ := filledSlots_of_filled slots (by rwa [hlength]) 0
  rw [List.length_map] at hlength
  let w₀ : World U := { w with client := env.observe (.called name arity) w.client }
  have hemit : Path O .strict (0, w) (0, w₀) :=
    ((Conserves.emit (.called name arity)) env ht.lawful w hx.idle).1
  have hx₀ := hemit.exact_aside hx
  have hbody := (ht.call_tame code hs).run ht.lawful hx₀ clear fun h hh => hx₀.isAlive
    (Multiset.mem_add.2 (.inr (Heap.mem_units hslots (by simpa [Payload.units] using hh))))
  have hcases : (invoke target container env w).Settles astray fun o w' =>
      ∃ out w₁, env.hooks.call code hs w₀ = .done out w₁ ∧
        ((o.isSome ∧ out = o ∧ w₁ = w' ∧ w'.pending = none) ∨
          o = none ∧ (out = none ∨ w₁.pending ≠ none) ∧ w'.pending ≠ none ∧
            (out = none → w₁.pending ≠ none → w'.pending = w₁.pending)) := by
    simp only [invoke, bind_run, Act.heap, hw.function, hslots, hhs, Act.emit, hlength]
    refine Outcome.Settles.bind (x := fun env w => env.hooks.call code hs w) hbody
      fun out w₁ ran hpath => ?_
    rw [bind_run]
    simp only [Indicator.isSet]
    cases hpending : w₁.pending with
    | none =>
      cases out with
      | some h => exact ⟨some h, w₁, ran, .inl ⟨rfl, rfl, rfl, hpending⟩⟩
      | none =>
        -- the function says nothing, so the call does
        obtain ⟨w', hraise, hset, _⟩ := raise_run .runtimeError
          s!"{name}() returned no result without setting an error" env hpending
        apply Outcome.Settles.bind (P := fun _ w₂ => w₂ = w') (by rw [hraise]; rfl)
        rintro _ w₂ _ rfl
        refine ⟨none, w₁, ran, .inr ⟨rfl, .inl rfl, by simp [hset], ?_⟩⟩
        exact fun _ hne => absurd hpending hne
    | some e =>
      cases out with
      | none => exact ⟨none, w₁, ran, .inr ⟨rfl, .inl rfl, by simp [hpending], fun _ _ => rfl⟩⟩
      | some stray =>
        have hstray : Ready O .strict {stray} w₁ := hx₀.idle.path hpath
        refine (ht.release_settles hstray).bind fun _ w₂ _ _ => ?_
        rw [bind_run]
        simp only [Indicator.take, Indicator.swap]
        obtain ⟨w', hraise, hset, _⟩ := raise_run .runtimeError _ env
          (rfl : ({ w₂ with pending := none } : World U).pending = none)
        apply Outcome.Settles.bind (P := fun _ w₃ => w₃ = w') (by rw [hraise]; rfl)
        rintro _ w₃ _ rfl
        exact ⟨some stray, w₁, ran, .inr ⟨rfl, .inr (by simp [hpending]), by simp [hset], by simp⟩⟩
  refine .conserved ?_ (invoke_conserves target container env ht.lawful w hx.idle)
  refine hcases.mono fun o w' hrun h => ?_
  obtain ⟨out, w₁, ran, ⟨hsome, rfl, rfl, hclear⟩ | ⟨rfl, hfails, hpending, hkept⟩⟩ := h
  · obtain ⟨h, rfl⟩ := Option.isSome_iff_exists.1 hsome
    exact .answered hw.function hslots hlength ran hclear
  · exact .failed hw.function hslots hlength ran hfails hpending hkept hrun

section

variable (env : Env U) (target : Handle) (arguments : List (Act U (Option Handle)))
  (units : List Handle)

/-- A call up to where its container is given back: every argument converts, the native values go,
and the function is invoked. -/
inductive Ran : Option Handle → World U → World U → Prop where
  | intro {container : Handle} {result : Option Handle} {w w₁ w₂ w₃ w₄ w' : World U}
      (made : newArguments arguments.length env w = .done container w₁)
      (converted : Converted env container arguments 0 w₁ w₂)
      (dropped : releaseAll units env w₂ = .done () w₃)
      (invoked : Invoked env target container arguments.length result w₃ w₄)
      (emptied : release container env w₄ = .done () w') (kept : w'.pending = w₄.pending) :
      Ran result w w'

inductive Exit : Returns U α → Except Failure α → World U → World U → Prop where
  /-- The first argument that does not convert is the last that is tried. -/
  | argument {returns : Returns U α} {container : Handle} {position : Nat} {w w₁ w₂ w' : World U}
      (made : newArguments arguments.length env w = .done container w₁)
      (refused : Refused env container arguments 0 position w₁ w₂)
      (rest : (do
        release container
        Indicator.clear
        Act.emit (.conversionFailed .argument position)
        releaseAll units : Act U Unit) env w₂ = .done () w')
      (clear : w'.pending = none) :
      Exit returns (.error (.of (.argumentConversion position arguments.length))) w w'
  | peer {returns : Returns U α} {w w' : World U}
      (ran : Ran env target arguments units none w w') (pending : w'.pending ≠ none) :
      Exit returns (.error .alreadyRaised) w w'
  | result {conversion : Handle → Act U (Option α)} {owned : α → List Handle} {h : Handle}
      {out : Option α} {w w₁ w₂ w' : World U}
      (ran : Ran env target arguments units (some h) w w₁)
      (converted : conversion h env w₁ = .done out w₂) (refuses : out = none ∨ w₂.pending ≠ none)
      (rest : (do
        release h
        Indicator.clear
        Act.emit (.conversionFailed .result 0)
        releaseAll (out.toList.flatMap owned) : Act U Unit) env w₂ = .done () w')
      (clear : w'.pending = none) :
      Exit (.convert conversion owned) (.error (.of .resultConversion)) w w'
  | converted {conversion : Handle → Act U (Option α)} {owned : α → List Handle} {h : Handle}
      {v : α} {w w₁ w₂ w' : World U} (ran : Ran env target arguments units (some h) w w₁)
      (converted : conversion h env w₁ = .done (some v) w₂)
      (rest : release h env w₂ = .done () w') (clear : w'.pending = none) :
      Exit (.convert conversion owned) (.ok v) w w'
  | discarded {value : α} {h : Handle} {w w₁ w' : World U}
      (ran : Ran env target arguments units (some h) w w₁)
      (rest : release h env w₁ = .done () w') (clear : w'.pending = none) :
      Exit (.discard value) (.ok value) w w'

end

def Returns.Tame (O : Ownership U) (astray : Prop) (env : Env U) : Returns U α → Prop
  | .convert conversion units =>
    ∀ h, (conversion h).Tame O astray env [h] (unitsIf fun v => ↑(units v))
  | .discard _ => True

variable {arguments : List (Act U (Option Handle))} {units : List Handle} {returns : Returns U α}

theorem Invoked.pending {result : Option Handle}
    (hi : Invoked env target container arity result w w') :
    w'.pending = none ↔ result.isSome := by
  cases hi with
  | answered _ _ _ _ clear => simp [clear]
  | failed _ _ _ _ _ pending _ _ => simp [pending]

theorem abandon_settles (ht : env.Tame O astray) (hx : Exact O (↑units + E) w) (e : Log.Event)
    (b : β) :
    ((do Indicator.clear; Act.emit e; releaseAll units; pure b : Act U β) env w).Settles astray
      fun b' w' => b' = b ∧ w'.pending = none ∧
        (do Indicator.clear; Act.emit e; releaseAll units : Act U Unit) env w = .done () w' := by
  obtain ⟨w₁, hclear, hnone, _⟩ := clear_run env w
  have hpath : Path O .strict (0, w) (0, w₁) := by
    have hout := clear_conserves (O := O) (d := .strict) env ht.lawful w hx.idle
    rw [hclear] at hout
    exact hout.1
  have hx₁ := hpath.exact_aside hx
  let w₂ : World U := { w₁ with client := env.observe e w₁.client }
  have hemit : Path O .strict (0, w₁) (0, w₂) := ((Conserves.emit e) env ht.lawful w₁ hx₁.idle).1
  have hx₂ := hemit.exact_aside hx₁
  have hrest := ht.releaseAll_settles units (hx₂.ready.of_frame E)
  simp only [bind_run, hclear, Act.emit]
  change ((releaseAll units >>= fun _ => pure b) env w₂).Settles _ _
  refine hrest.bind fun _ w' hrun h => ⟨rfl, h.1.trans hnone, hrun⟩

theorem finish_settles (ht : env.Tame O astray) (hreturns : Returns.Tame O astray env returns)
    {h : Handle} (hx : Exact O ({h} + E) w₁) (ran : Ran env target arguments units (some h) w w₁)
    (clear : w₁.pending = none) :
    (finish returns h env w₁).Settles astray fun r w' =>
      Exit env target arguments units returns r w w' := by
  cases returns with
  | discard value =>
    refine (ht.release_settles (hx.ready.of_frame E)).bind fun _ w' rest hrest => ?_
    exact .discarded ran rest (hrest.1.trans clear)
  | convert conversion owned =>
    have hconversion := (hreturns h).run ht.lawful hx clear fun k hk => hx.isAlive (by
      rw [List.mem_singleton.1 hk, add_assoc, add_assoc, Multiset.mem_add]
      exact .inl (Multiset.mem_singleton_self h))
    refine (holding_settles [h] hconversion).bind fun out w₂ _ hout => ?_
    obtain ⟨converted, hpath⟩ := hout
    have hx₂ : Exact O ({h} + (↑(out.toList.flatMap owned) + E)) w₂ := by
      have hframe := hpath.exact_join hx
      have hunits : unitsIf (fun v => ↑(owned v)) out =
          (↑(out.toList.flatMap owned) : Multiset Handle) := by
        cases out <;> simp [unitsIf]
      rwa [hunits, add_left_comm] at hframe
    have hrelease := ht.release_settles (hx₂.ready.of_frame _)
    refine (holding_settles _ hrelease).bind fun _ w₃ _ hout => ?_
    obtain ⟨released, hkept, hpath₂⟩ := hout
    have hx₃ := hpath₂.exact_spend hx₂
    have hrefuse : out = none ∨ w₂.pending ≠ none →
        ((do
          Indicator.clear
          Act.emit (.conversionFailed .result 0)
          releaseAll (out.toList.flatMap owned)
          pure (.error (.of .resultConversion)) : Act U (Except Failure α)) env w₃).Settles astray
          fun r w' => Exit env target arguments units (.convert conversion owned) r w w' :=
      fun refuses => by
      refine (abandon_settles ht hx₃ (.conversionFailed .result 0) _).mono fun r w' _ h => ?_
      obtain ⟨rfl, hclear, rest⟩ := h
      refine .result ran converted refuses ?_ hclear
      rw [bind_run, released]
      exact rest
    rw [bind_run]
    simp only [Indicator.isSet]
    cases hpending : w₃.pending with
    | some e =>
      have hout := hrefuse (.inr (by simp [← hkept, hpending]))
      cases out <;> exact hout
    | none =>
      cases out with
      | none => exact hrefuse (.inl rfl)
      | some v => exact .converted ran converted released hpending

/-- A call begun with the indicator clear takes one of the exits. -/
theorem call_settles (ht : env.Tame O astray)
    (harguments : ∀ a ∈ arguments, a.Tame O astray env units fun o => ↑o.toList)
    (hreturns : Returns.Tame O astray env returns) (hx : Exact O (↑units + E) w)
    (htarget : target ∈ E) (hfunction : w.heap.payload? target = some (.function name code))
    (clear : w.pending = none) :
    (call target arguments units returns env w).Settles astray fun r w' =>
      Exit env target arguments units returns r w w' := by
  unfold call
  rw [bind_run]
  simp only [Indicator.isSet, clear, Option.isSome_none, Bool.false_eq_true, if_false]
  refine (newArguments_settles ht hx hfunction arguments.length).bind fun container w₁ made h => ?_
  obtain ⟨hkept₁, hpath₁, hw₁⟩ := h
  have hx₁ := hpath₁.exact_join hx
  have hmarshal := marshal_settles ht harguments hx₁
    (fun h hh => by simp [hh]) (by simp [htarget]) (by simp) hw₁ (Nat.zero_add _)
    (hkept₁.trans clear)
  refine (holding_settles _ hmarshal).bind fun stopped w₂ _ h => ?_
  obtain ⟨_, h⟩ := h
  cases stopped with
  | some position =>
    obtain ⟨refused, hpath₂⟩ := h
    have hx₂ := hpath₂.exact_aside hx₁
    have hrelease := ht.release_settles (hx₂.ready.of_frame _)
    refine (holding_settles units hrelease).bind fun _ w₃ _ h => ?_
    obtain ⟨released, _, hpath₃⟩ := h
    have hx₃ := hpath₃.exact_spend hx₂
    refine (abandon_settles ht hx₃ (.conversionFailed .argument position) _).mono fun r w' _ h => ?_
    obtain ⟨rfl, hclear, rest⟩ := h
    refine .argument made refused ?_ hclear
    rw [bind_run, released]
    exact rest
  | none =>
    -- the native values go first, while the container keeps the converted ones
    obtain ⟨converted, hclear₂, hpath₂, hw₂⟩ := h
    have hx₂ : Exact O (↑units + ({container} + E)) w₂ := by
      rw [add_left_comm]
      exact hpath₂.exact_aside hx₁
    have hdrop := ht.releaseAll_settles units (hx₂.ready.of_frame _)
    refine (holding_settles [container] hdrop).bind fun _ w₃ _ h => ?_
    obtain ⟨dropped, hkept₃, hpath₃⟩ := h
    have hw₃ := hw₂.path hpath₃ hx₂ (by simp [htarget]) (by simp)
    have hx₃ := hpath₃.exact_spend hx₂
    have hinvoke := invoke_settles ht hx₃ hw₃ (hkept₃.trans hclear₂)
    refine (holding_settles [container] hinvoke).bind fun result w₄ _ h => ?_
    obtain ⟨_, invoked, hpath₄⟩ := h
    have hx₄ : Exact O ({container} + (↑result.toList + E)) w₄ := by
      rw [add_left_comm]
      exact hpath₄.exact_join hx₃
    have hempty := ht.release_settles (hx₄.ready.of_frame _)
    refine (holding_settles result.toList hempty).bind fun _ w₅ _ h => ?_
    obtain ⟨emptied, hkept₅, hpath₅⟩ := h
    have ran : Ran env target arguments units result w w₅ :=
      .intro made converted dropped invoked emptied hkept₅
    have hpending : w₅.pending = none ↔ result.isSome := by rw [hkept₅, invoked.pending]
    cases result with
    | none => exact .peer ran (by simpa using hpending)
    | some h =>
      exact finish_settles ht hreturns (hpath₅.exact_spend hx₄) ran (hpending.2 rfl)

variable (O env arguments units returns) in
structure UserReturns : Prop where
  release : ∀ h w, Ready O .strict {h} w → (env.release h w).Settles False fun _ _ => True
  call : ∀ code hs, Act.Settles O False env hs fun env w => env.hooks.call code hs w
  argument : ∀ a ∈ arguments, a.Settles O False env units
  result : ∀ conversion owned, returns = .convert conversion owned →
    ∀ h, (conversion h).Settles O False env [h]

theorem env_tame (henv : env.Lawful O) (hcalm : env.Calm) :
    env.Tame O (¬ UserReturns O env arguments units returns) where
  lawful := henv
  calm := hcalm
  release := fun h w hw => .otherwise (fun hr => hr.release h w hw) fun _ _ _ => trivial
  call := fun code hs w hw clear alive =>
    .otherwise (fun hr => hr.call code hs w hw clear alive) fun _ _ _ => trivial

theorem arguments_tame
    (harguments : ∀ a ∈ arguments, Conserves O .strict 0 a fun o => ↑o.toList) :
    ∀ a ∈ arguments, a.Tame O (¬ UserReturns O env arguments units returns) env units
      fun o => ↑o.toList := by
  intro a ha
  refine ⟨harguments a ha, fun w hw clear alive => ?_⟩
  exact .otherwise (fun hr => hr.argument a ha w hw clear alive) fun _ _ _ => trivial

theorem returns_tame (hreturns : returns.Lawful O) :
    Returns.Tame O (¬ UserReturns O env arguments units returns) env returns := by
  cases returns with
  | discard value => trivial
  | convert conversion owned =>
    intro h
    refine ⟨hreturns .strict h, fun w hw clear alive => ?_⟩
    exact .otherwise (fun hr => hr.result conversion owned rfl h w hw clear alive)
      fun _ _ _ => trivial

theorem call_pending_settles (ht : env.Tame O astray) {e : Raised} (hx : Exact O (↑units + E) w)
    (hpending : w.pending = some e) :
    (call target arguments units returns env w).Settles astray fun r w' =>
      r = .error .alreadyRaised ∧ w'.pending = some e ∧ releaseAll units env w = .done () w' := by
  unfold call
  rw [bind_run]
  simp only [Indicator.isSet, hpending, Option.isSome_some, if_true]
  refine (ht.releaseAll_settles units (hx.ready.of_frame E)).bind fun _ w' hrun h => ?_
  exact ⟨rfl, h.1.trans hpending, hrun⟩

/-- With an error pending a call gives its native values back and leaves the error. Otherwise it
takes an exit. Nothing stays behind: what is in hand afterwards is what the result owns. -/
theorem call_exits (henv : env.Lawful O) (hcalm : env.Calm)
    (harguments : ∀ a ∈ arguments, Conserves O .strict 0 a fun o => ↑o.toList)
    (hreturns : returns.Lawful O) (htarget : target ∈ E)
    (hfunction : w.heap.payload? target = some (.function name code))
    (hx : Exact O (↑units + E) w) :
    match call target arguments units returns env w with
    | .done r w' =>
      Exact O (unitsOk (fun v => ↑(returns.units v)) r + E) w' ∧
        match w.pending with
        | some e => r = .error .alreadyRaised ∧ w'.pending = some e ∧
            releaseAll units env w = .done () w'
        | none => Exit env target arguments units returns r w w'
    | .fault _ _ | .unfinished => ¬ UserReturns O env arguments units returns := by
  have ht : env.Tame O (¬ UserReturns O env arguments units returns) := env_tame henv hcalm
  have hsettles : (call target arguments units returns env w).Settles
      (¬ UserReturns O env arguments units returns) fun r w' => match w.pending with
        | some e => r = .error .alreadyRaised ∧ w'.pending = some e ∧
            releaseAll units env w = .done () w'
        | none => Exit env target arguments units returns r w w' := by
    cases hpending : w.pending with
    | some e => exact call_pending_settles ht hx hpending
    | none =>
      exact call_settles ht (arguments_tame harguments) (returns_tame hreturns) hx htarget
        hfunction hpending
  have hboth := hsettles.conserved
    (call_conserves target harguments units hreturns env henv w (hx.ready.of_frame E))
  cases hr : call target arguments units returns env w with
  | done r w' =>
    rw [hr] at hboth
    exact ⟨hboth.2.exact_frame hx, hboth.1⟩
  | fault c w' =>
    rw [hr] at hboth
    exact hboth
  | unfinished =>
    rw [hr] at hboth
    exact hboth

def ownerless : Ownership Unit where
  units := fun _ => 0
  sound := fun _ => True
  scope := fun _ => []

def echoHooks (env : Env Unit) : Hooks Unit where
  call := fun _ hs w =>
    match hs with
    | h :: _ => (some <$> acquire h : Act Unit (Option Handle)) env w
    | [] => .done none w
  slot := fun _ _ w => .done none w
  measure := fun _ _ w => .done none w
  destroy := fun _ hs w => releaseAll hs env w
  toPeer := fun _ _ _ w => .done none w

def echo : Env Unit := .ample (fun _ u => u) echoHooks 1

def echoWorld : World Unit :=
  { heap := (Heap.empty.insert (.function "echo" 0)).2
    pending := none
    settings := {}
    client := () }

theorem echoHooks_lawful {env : Env Unit} (henv : env.Lawful ownerless) :
    (echoHooks env).Lawful ownerless where
  call := fun d _ hs w hw => by
    cases hs with
    | nil => exact ⟨.refl, rfl⟩
    | cons h hs => exact (Conserves.map (f := some) (acquire_conserves rfl)) env henv w hw
  slot := fun _ _ _ _ _ => ⟨.refl, rfl⟩
  measure := fun _ _ _ _ _ => ⟨.refl, rfl⟩
  destroy := fun d _ hs w hw => releaseAll_conserves hs env henv w hw
  toPeer := fun _ _ _ _ _ _ => ⟨.refl, rfl⟩

theorem echoTie_lawful (n : Nat) : (Env.tie (fun _ u => u) echoHooks n).Lawful ownerless :=
  tie_lawful (fun _ _ => rfl) (fun _ _ => rfl) (fun _ _ h => h) (fun _ => echoHooks_lawful) n

theorem echo_lawful : echo.Lawful ownerless :=
  Env.ample_lawful echoTie_lawful fun _ => echoHooks_lawful

theorem echo_calm : echo.Calm :=
  Env.ample_calm fun n => tie_calm (fun _ hc _ hs _ => releaseAll_calm hc hs) n

theorem intFromPeer_run (env : Env U) (h : Handle) (clear : w.pending = none) :
    ∃ v w', intFromPeer h env w = .done v w' := by
  unfold intFromPeer asInt askPayload typeNameOf
  simp only [bind_run, pure_run, Act.heap]
  cases (Option.map Payload.asInt? (w.heap.payload? h)).bind id with
  | some v => exact ⟨some v, w, rfl⟩
  | none =>
    obtain ⟨w', hrun, _⟩ := raise_run .typeError
      s!"an integer is required (got type {w.heap.typeName h})" env clear
    refine ⟨none, w', ?_⟩
    simp only [bind_run, Act.heap, raiseType, hrun]
    rfl

abbrev echoArguments : List (Act Unit (Option Handle)) := [some <$> alloc (.int 7)]

abbrev echoReturns : Returns Unit Int64 := .convert intFromPeer fun _ => []

theorem echo_returns : UserReturns ownerless echo echoArguments [] echoReturns where
  release := fun h w ready => by
    have hfrees : echo.Frees ownerless w.heap.stats.live :=
      Env.ample_frees echoTie_lawful (fun env n henv hf _ hs w ready hlive =>
        releaseAll_frees henv hf hs ready hlive) _
    exact (hfrees h w ready le_rfl).mono fun _ _ _ _ => trivial
  call := fun code hs w _ _ alive => by
    cases hs with
    | nil => trivial
    | cons h hs =>
      obtain ⟨w', hrun, _⟩ := acquire_run
        (.tie (fun _ u => u) echoHooks (2 * w.heap.stats.live + 1)) (alive h List.mem_cons_self)
      change ((acquire h >>= fun h => pure (some h)) _ w).Settles _ _
      rw [bind_run, hrun]
      trivial
  argument := fun a ha w _ _ _ => by
    obtain ⟨w', hrun, _⟩ := alloc_run (.int 7) echo w
    rw [List.mem_singleton.1 ha]
    change ((alloc (.int 7) >>= fun h => pure (some h)) echo w).Settles _ _
    rw [bind_run, hrun]
    trivial
  result := fun conversion owned hconvert h w _ clear _ => by
    cases hconvert
    obtain ⟨v, w', hrun⟩ := intFromPeer_run echo h clear
    rw [hrun]
    trivial

theorem echoWorld_exact : Exact ownerless {⟨0, 0⟩} echoWorld := by
  have hempty : Exact ownerless 0 { echoWorld with heap := .empty } :=
    ⟨Heap.empty_inOrder, fun _ => rfl, trivial⟩
  exact hempty.insert_leaf (.function "echo" 0) rfl

theorem call_exits_echo :
    UserReturns ownerless echo echoArguments [] echoReturns ∧
    ∃ w', call ⟨0, 0⟩ echoArguments [] echoReturns echo echoWorld = .done (.ok 7) w' ∧
      Exact ownerless {⟨0, 0⟩} w' ∧
      Exit echo ⟨0, 0⟩ echoArguments [] echoReturns (.ok 7) echoWorld w' := by
  have hx : Exact ownerless (↑([] : List Handle) + {⟨0, 0⟩}) echoWorld := by
    rw [Multiset.coe_nil, zero_add]
    exact echoWorld_exact
  have harguments : ∀ a ∈ echoArguments, Conserves ownerless .strict 0 a fun o => ↑o.toList :=
    fun a ha => by
      rw [List.mem_singleton.1 ha]
      exact Conserves.map (f := some) (allocLeaf_conserves rfl)
  have hreturns : echoReturns.Lawful ownerless := fun d h =>
    (intFromPeer_conserves h).of_eq rfl fun o => by cases o <;> rfl
  have hfunction : echoWorld.heap.payload? ⟨0, 0⟩ = some (.function "echo" 0) := rfl
  have hexits := call_exits echo_lawful echo_calm harguments hreturns
    (Multiset.mem_singleton_self _) hfunction hx
  obtain ⟨w', hrun⟩ : ∃ w', call ⟨0, 0⟩ echoArguments [] echoReturns echo echoWorld =
      .done (.ok 7) w' := ⟨_, rfl⟩
  rw [hrun] at hexits
  exact ⟨echo_returns, w', hrun, by simpa [unitsOk, Returns.units] using hexits.1, hexits.2⟩

end Callable

end Causeway
