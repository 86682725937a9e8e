import Causeway.Proofs.CallExits
import Causeway.Proofs.Invocation
/-!
# Calls and the functions they enter

A call that gets that far enters its function with what the container holds, in a world that it has
made ready for it. What becomes of the function decides from there: with its error pending, the call
only has its container left to give back.
-/
set_option autoImplicit false

namespace Causeway

open Act

variable {U α : Type} {O : Ownership U} {astray : Prop} {env : Env U} {E : Multiset Handle}

def Raises (e : Raised) (out : Option Handle) (w : World U) : Prop := out = none ∧ w.pending = some e

theorem invoke_raises {callable arguments : Handle} {name : String} {code : CodeId} {e : Raised}
    {hs : List Handle} {w : World U} (happlies : w.heap.Applies callable arguments name code hs)
    (hrun : (env.hooks.call code hs (w.noting env (.called name hs.length))).Settles astray
      (Raises e)) :
    (invoke callable arguments env w).Settles astray (Raises e) := by
  rw [invoke_applied happlies]
  cases hout : env.hooks.call code hs (w.noting env (.called name hs.length)) with
  | done out w₁ =>
    rw [hout] at hrun
    obtain ⟨rfl, hpending⟩ := hrun
    change (verdict name none env w₁).Settles astray (Raises e)
    rw [verdict_failed hpending]
    exact ⟨rfl, hpending⟩
  | fault c w₁ =>
    rw [hout] at hrun
    exact hrun
  | unfinished =>
    rw [hout] at hrun
    exact hrun

namespace Callable

variable {target container : Handle} {arguments : List (Act U (Option Handle))}
  {units : List Handle} {returns : Returns U α} {name : String} {code : CodeId}
  {w w₁ w₂ w₃ w' : World U} {ks : List Handle} {index : Nat}

theorem Converted.marshal_run (h : Converted env container arguments index w w') :
    marshal container arguments index env w = .done none w' := by
  induction h with
  | nil => rfl
  | cons clear ran converts placed _ ih =>
    simp only [marshal, bind_run, ran, Indicator.isSet, converts, Option.isSome_none, placed]
    exact ih

/-- The function is entered with indicator and heap in order, and with the container in hand. -/
theorem prelude_sound (henv : env.Lawful O) (hcalm : env.Calm)
    (harguments : ∀ a ∈ arguments, Conserves O .strict 0 a fun o => ↑o.toList)
    (hx : Exact O (↑units + E) w) (htarget : target ∈ E)
    (hfunction : w.heap.payload? target = some (.function name code)) (clear : w.pending = none)
    (made : newArguments arguments.length env w = .done container w₁)
    (converted : marshal container arguments 0 env w₁ = .done none w₂)
    (dropped : releaseAll units env w₂ = .done () w₃) :
    Exact O ({container} + E) w₃ ∧ w₃.pending = none ∧
      Underway target container name code arguments.length arguments.length w₃ := by
  have ht : env.Tame O True := Env.tame_of_calm henv hcalm
  have hmade := newArguments_settles ht hx hfunction arguments.length
  rw [made] at hmade
  obtain ⟨hkept₁, hpath₁, hw₁⟩ := hmade
  have hx₁ := hpath₁.exact_join hx
  have htame : ∀ a ∈ arguments, a.Tame O True env units fun o => ↑o.toList :=
    fun a ha => ⟨harguments a ha, fun _ _ _ _ => .any _⟩
  have hmarshal := marshal_settles ht htame hx₁ (fun h hh => by simp [hh]) (by simp [htarget])
    (by simp) hw₁ (Nat.zero_add _) (hkept₁.trans clear)
  rw [converted] at hmarshal
  obtain ⟨-, hclear₂, hpath₂, hw₂⟩ := hmarshal
  have hx₂ : Exact O (↑units + ({container} + E)) w₂ := by
    rw [add_left_comm]
    exact hpath₂.exact_aside hx₁
  have hdrop := ht.releaseAll_settles units (hx₂.ready.of_frame _)
  rw [dropped] at hdrop
  obtain ⟨hkept₃, hpath₃⟩ := hdrop
  exact ⟨hpath₃.exact_spend hx₂, hkept₃.trans hclear₂,
    hw₂.path hpath₃ hx₂ (by simp [htarget]) (by simp)⟩

variable (env target arguments units code) in
/-- The call begun in `w` enters the function of that code, with `ks` and in `w'`. -/
inductive Enters (w : World U) (ks : List Handle) (w' : World U) : Prop where
  | intro {container : Handle} {name : String} {w₁ w₂ w₃ : World U}
      (made : newArguments arguments.length env w = .done container w₁)
      (converted : marshal container arguments 0 env w₁ = .done none w₂)
      (dropped : releaseAll units env w₂ = .done () w₃)
      (applies : w₃.heap.Applies target container name code ks)
      (noted : w' = w₃.noting env (.called name ks.length))

theorem noting_exact {e : Log.Event} (henv : env.Lawful O) (hx : Exact O E w) :
    Exact O E (w.noting env e) :=
  ((Conserves.emit e) env henv w hx.idle).1.exact_aside hx

theorem Enters.sound (henv : env.Lawful O) (hcalm : env.Calm)
    (harguments : ∀ a ∈ arguments, Conserves O .strict 0 a fun o => ↑o.toList)
    (hx : Exact O (↑units + E) w) (htarget : target ∈ E)
    (hfunction : w.heap.payload? target = some (.function name code)) (clear : w.pending = none)
    (hentered : Enters env target arguments units code w ks w') :
    Ready O .strict 0 w' ∧ w'.pending = none := by
  obtain ⟨made, converted, dropped, applies, rfl⟩ := hentered
  obtain ⟨hx₃, hclear, -⟩ := prelude_sound henv hcalm harguments hx htarget hfunction clear made
    converted dropped
  exact ⟨(noting_exact henv hx₃).idle, hclear⟩

/-- A call whose function raises gives the container back and leaves the error. -/
theorem Enters.call_raises (hs : env.Sheds O astray) {e : Raised}
    (harguments : ∀ a ∈ arguments, Conserves O .strict 0 a fun o => ↑o.toList)
    (hx : Exact O (↑units + E) w) (htarget : target ∈ E)
    (hfunction : w.heap.payload? target = some (.function name code)) (clear : w.pending = none)
    (hentered : Enters env target arguments units code w ks w')
    (hrun : (env.hooks.call code ks w').Settles astray (Raises e)) :
    (call target arguments units returns env w).Settles astray fun r w' =>
      r = .error .alreadyRaised ∧ w'.pending = some e ∧ Exact O E w' := by
  obtain @⟨container, name', w₁, w₂, w₃, made, converted, dropped, applies, rfl⟩ := hentered
  obtain ⟨hx₃, -, -⟩ := prelude_sound hs.lawful hs.calm harguments hx htarget hfunction clear made
    converted dropped
  have hinvoke := (invoke_raises applies hrun).conserved
    (invoke_conserves target container env hs.lawful w₃ hx₃.idle)
  have hmarshal : holding (container :: units) (marshal container arguments 0) env w₁ =
      .done none w₂ := onFault_done converted
  have hdrop : holding [container] (releaseAll units) env w₂ = .done () w₃ := onFault_done dropped
  unfold call
  rw [bind_run]
  simp only [Indicator.isSet, clear, Option.isSome_none, Bool.false_eq_true, if_false]
  rw [bind_run, made]
  dsimp only
  rw [bind_run, hmarshal]
  dsimp only
  rw [bind_run, hdrop]
  refine (holding_settles [container] hinvoke).bind fun result w₄ _ h => ?_
  obtain ⟨-, ⟨rfl, hpending⟩, hpath⟩ := h
  have hx₄ : Exact O ({container} + E) w₄ := hpath.exact_aside hx₃
  refine (holding_settles [] (hs.release_settles (hx₄.ready.of_frame E))).bind fun _ w₅ _ h => ?_
  exact ⟨rfl, h.2.1.trans hpending, h.2.2.exact_spend hx₄⟩

/-- A call that ran up to where its container is given back entered its function, and what that left
is what the call goes on with, unless it is no proper answer. -/
theorem Ran.enters (henv : env.Lawful O) (hcalm : env.Calm)
    (harguments : ∀ a ∈ arguments, Conserves O .strict 0 a fun o => ↑o.toList)
    (hx : Exact O (↑units + E) w) (htarget : target ∈ E)
    (hfunction : w.heap.payload? target = some (.function name code)) (clear : w.pending = none)
    {result : Option Handle} (hran : Ran env target arguments units result w w') :
    ∃ ks w₁ out w₂, Enters env target arguments units code w ks w₁ ∧
      env.hooks.call code ks w₁ = .done out w₂ ∧
      match result with
      | some h => out = some h ∧ w₂.pending = none
      | none => (out = none ∨ w₂.pending ≠ none) ∧
          (out = none → w₂.pending ≠ none → w'.pending = w₂.pending) := by
  obtain ⟨made, converted, dropped, invoked, -, kept⟩ := hran
  obtain ⟨-, -, hw₃⟩ := prelude_sound henv hcalm harguments hx htarget hfunction clear made
    converted.marshal_run dropped
  cases invoked with
  | answered function slots length ran clear' =>
    obtain ⟨rfl, rfl⟩ := Payload.function.inj (Option.some.inj (hw₃.function.symm.trans function))
    rw [← length] at ran
    exact ⟨_, _, _, _, .intro made converted.marshal_run dropped ⟨function, slots⟩ rfl, ran, rfl,
      clear'⟩
  | failed function slots length ran fails pending kept' run =>
    obtain ⟨rfl, rfl⟩ := Payload.function.inj (Option.some.inj (hw₃.function.symm.trans function))
    rw [← length] at ran
    exact ⟨_, _, _, _, .intro made converted.marshal_run dropped ⟨function, slots⟩ rfl, ran, fails,
      fun hout hset => kept.trans (kept' hout hset)⟩

theorem Exit.ok_clear {v : α} (h : Exit env target arguments units returns (.ok v) w w') :
    w'.pending = none := by
  cases h <;> assumption

/-- A call describes its failure, or its function has failed. -/
theorem Exit.error_cases {d : Failure}
    (h : Exit env target arguments units returns (.error d) w w') :
    d.kind.exception? ≠ none ∨
      (d = .alreadyRaised ∧ Ran env target arguments units none w w') := by
  cases h with
  | argument | result => exact .inl (by simp [Failure.of, FailureKind.exception?])
  | peer ran pending => exact .inr ⟨rfl, ran⟩

end Callable

end Causeway
