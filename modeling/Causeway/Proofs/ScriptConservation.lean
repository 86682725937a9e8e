import Causeway.Proofs.OperationConservation
import Causeway.Machine.Program
/-!
# Conservation by scripts

An operation conserves units wherever it stands in a script, and so does all user code that is made
of admitted scripts: the environment a program runs in is lawful, to any depth of re-entry.
-/
set_option autoImplicit false

namespace Causeway.Machine

open Act

variable {d : Discipline} {arguments : List Handle}

theorem runOp_conserves {op : Op} (hop : d = .strict → op.Plain) :
    Conserves clientOwnership d 0 (runOp arguments op) fun _ => 0 := by
  obtain ⟨command, keep, keepFailure, quiet⟩ := op
  have hraw : d = .strict → command.isRaw = false := fun hd => by
    cases hop hd with
    | intro notRaw bodies => exact notRaw
  have hbodies : Admits d command.bodies := fun hd => by
    cases hop hd with
    | intro notRaw bodies => exact bodies
  apply Conserves.next (journaled_conserves (perform_conserves hraw hbodies))
  intro r
  exact .ask .world fun w => .pure rfl

theorem runOps_conserves {ops : List Op} (hops : Admits d [ops]) :
    Conserves clientOwnership d 0 (runOps arguments ops) fun _ => 0 := by
  have hplain : ∀ op ∈ ops, d = .strict → op.Plain := fun op hop hd =>
    hops hd ops (List.mem_singleton.2 rfl) op hop
  clear hops
  induction ops with
  | nil => exact .pure rfl
  | cons op ops ih =>
    apply Conserves.next (runOp_conserves (hplain op List.mem_cons_self))
    intro entry
    apply Conserves.next (note_conserves entry)
    intro _
    exact ih fun op hop => hplain op (List.mem_cons_of_mem _ hop)

def Yielded.units : Yielded → Multiset Handle := unitsOk fun o => ↑o.toList

theorem newInt_conserves (i : Int64) :
    Conserves clientOwnership d 0 (newInt i) Yielded.units :=
  .next (allocLeaf_conserves rfl) fun _ => .pure rfl

theorem sumInts_conserves : Conserves clientOwnership d 0 (sumInts arguments) Yielded.units :=
  .next (.mapM fun h _ => .reads (asInt_reads h)) fun _ => newInt_conserves _

theorem sumFloats_conserves : Conserves clientOwnership d 0 (sumFloats arguments) Yielded.units :=
  .next (.mapM fun h _ => .reads (asFloat_reads h)) fun _ =>
    .next (allocLeaf_conserves rfl) fun _ => .pure rfl

theorem joinTexts_conserves : Conserves clientOwnership d 0 (joinTexts arguments) Yielded.units :=
  .next (.mapM fun h _ => .reads (repr_reads h)) fun _ =>
    .next (allocLeaf_conserves rfl) fun _ => .pure rfl

theorem squareLessTwo_conserves :
    Conserves clientOwnership d 0 (squareLessTwo arguments) Yielded.units := by
  unfold squareLessTwo
  split
  · exact .pure rfl
  · apply Conserves.ask (asFloat_reads _)
    intro x
    cases x with
    | none => exact .pure rfl
    | some x => exact .next (allocLeaf_conserves rfl) fun _ => .pure rfl

theorem sumView_conserves :
    Conserves clientOwnership d 0 (sumView arguments) Yielded.units := by
  unfold sumView
  split
  · apply Conserves.next (View.make_conserves _)
    intro r
    cases r with
    | error f => exact .pure rfl
    | ok iterable =>
      refine .bind {iterable} (holding_conserves _
        (View.collect_conserves (builtinIntake_lawful .i32) iterable)) (zero_add _).symm
        fun out => ?_
      cases out with
      | error f => exact .bind 0 (release_conserves iterable) (add_comm _ _) fun _ => .pure rfl
      | ok vs =>
        have hleaf : (↑(List.flatMap (builtinIntake (U := Client) .i32).units vs) :
            Multiset Handle) = 0 :=
          congrArg _ (List.flatMap_eq_nil_iff.2 fun _ _ => rfl)
        rw [unitsOk, hleaf, zero_add]
        exact .next (release_conserves iterable) fun _ => newInt_conserves _
  · exact .pure rfl
  · exact .pure rfl

theorem applyFirst_conserves :
    Conserves clientOwnership d 0 (applyFirst arguments) Yielded.units := by
  unfold applyFirst
  split
  · apply Conserves.next (fromPeer_conserves .callable _)
    intro target
    cases target with
    | none => exact .pure rfl
    | some target =>
      apply Conserves.bind {target} (holding_conserves _ (fromPeer_conserves .i64 _)) rfl
      intro x
      cases x with
      | none => exact .bind 0 (release_conserves target) (add_comm _ _) fun _ => .pure rfl
      | some i =>
        refine .bind {target} (holding_conserves [target] (Callable.call_conserves target ?_ [] ?_))
          rfl fun r => ?_
        · intro a ha
          rw [List.mem_singleton.1 ha]
          exact toPeer_conserves .i64 i
        · exact fun _ h => fromPeer_conserves .i64 h
        cases r with
        | error f => exact .bind 0 (release_conserves target) (add_comm _ _) fun _ => .pure rfl
        | ok j =>
          apply Conserves.bind {target} (holding_conserves _ (allocLeaf_conserves rfl)) rfl
          intro result
          exact .bind {result} (release_conserves target) (add_comm _ _) fun _ => .pure rfl
  · exact .pure rfl
  · exact .pure rfl

theorem Formula.run_conserves (f : Formula) :
    Conserves clientOwnership d 0 (f.run arguments) Yielded.units := by
  cases f with
  | sumInt => exact sumInts_conserves
  | sumFloat => exact sumFloats_conserves
  | count => exact newInt_conserves _
  | repr => exact joinTexts_conserves
  | squareMinusTwo => exact squareLessTwo_conserves
  | sumIter => exact sumView_conserves
  | apply => exact applyFirst_conserves

theorem yieldBorrowed_conserves (h : Handle) :
    Conserves clientOwnership d 0 (do pure (.ok (some (← acquire h))) : Run Yielded)
      Yielded.units :=
  .next (acquire_conserves (K := fun h => {h}) rfl) fun _ => .pure rfl

theorem Yield.resolve_conserves (y : Yield) :
    Conserves clientOwnership d 0 (y.resolve arguments) Yielded.units := by
  induction y with
  | unit => exact .next (allocLeaf_conserves rfl) fun _ => .pure rfl
  | nothing | length => exact .pure rfl
  | self =>
    cases arguments with
    | nil => exact .pure rfl
    | cons h hs => exact yieldBorrowed_conserves h
  | new v =>
    cases v with
    | none => exact .pure rfl
    | some v => exact .next (build_conserves arguments v) fun _ => .pure rfl
  | register name =>
    refine .ask (register?_reads name) fun o => ?_
    cases o.bind Holding.object? with
    | none => exact .pure rfl
    | some h => exact yieldBorrowed_conserves h
  | take name => exact .map (takeOwned_conserves name)
  | argument i =>
    unfold Yield.resolve
    cases arguments[i]? with
    | none => exact .pure rfl
    | some h => exact yieldBorrowed_conserves h
  | failure f => exact .pure rfl
  | kept name orElse ih =>
    apply Conserves.next (takeFailure_conserves name)
    intro o
    cases o with
    | none => exact ih
    | some f => exact .pure rfl
  | formula f => exact f.run_conserves

theorem stepOf_cases (steps : List (Step (List Op))) (k : Nat) :
    stepOf steps k ∈ steps ∨ stepOf steps k = ⟨[], .unit⟩ := by
  unfold stepOf
  cases hk : steps[k]? with
  | some step => exact .inl (List.mem_of_getElem? hk)
  | none =>
    cases hlast : steps.getLast? with
    | some step => exact .inl (List.mem_of_getLast? hlast)
    | none => exact .inr rfl

theorem stepOf_admitted {steps : List (Step (List Op))} (hsteps : Admits d (steps.map (·.body)))
    (k : Nat) : Admits d [(stepOf steps k).body] := by
  obtain hmem | hdefault := stepOf_cases steps k
  · refine hsteps.of_subset fun body hbody => ?_
    rw [List.mem_singleton.1 hbody]
    exact List.mem_map_of_mem hmem
  · rw [hdefault]
    intro _ body hbody op hop
    rw [List.mem_singleton.1 hbody] at hop
    exact absurd hop List.not_mem_nil

theorem nextStep_answers {id : CodeId} {steps : List (Step (List Op))}
    (hsteps : Admits d (steps.map (·.body))) :
    (nextStep id steps).Answers fun step => Admits d [step.body] := by
  refine .bind fun found => ?_
  split <;> exact .pure (stepOf_admitted hsteps _)

theorem nextStep_conserves (id : CodeId) (steps : List (Step (List Op))) :
    Conserves clientOwnership d 0 (nextStep id steps) fun _ => 0 := by
  apply Conserves.next (enterCode_conserves id)
  intro found
  split <;> exact .pure rfl

theorem runSteps_conserves {id : CodeId} {name : String} {steps : List (Step (List Op))}
    (hsteps : Admits d (steps.map (·.body))) :
    Conserves clientOwnership d 0 (runSteps id name steps arguments) Yielded.units := by
  refine .next (.mapM fun h _ => .reads (repr_reads h)) fun texts => ?_
  apply Conserves.next (note_conserves _)
  intro _
  apply Conserves.nextOf (nextStep_answers hsteps) (nextStep_conserves id steps)
  intro step hstep
  exact .next (runOps_conserves hstep) fun _ => step.yield.resolve_conserves

theorem guardYielded_conserves (y : Yielded) :
    Conserves clientOwnership d y.units (guardYielded y) fun o => ↑o.toList := by
  cases y with
  | ok h => exact .pure rfl
  | error f => exact guarded_conserves (.error f)

theorem runNativeFunction_conserves {id : CodeId} {name : String} {steps : List (Step (List Op))}
    {arity : Option Nat} (hsteps : Admits d (steps.map (·.body))) :
    Conserves clientOwnership d 0 (runNativeFunction id name steps arity arguments)
      fun o => ↑o.toList := by
  unfold runNativeFunction
  dsimp only
  split
  · exact guarded_conserves (.error _)
  · apply Conserves.next (runSteps_conserves hsteps)
    intro y
    split
    · exact guarded_conserves (.ok _)
    · exact guarded_conserves (.error _)
    · exact guarded_conserves (.error _)

theorem runFunction_conserves {id : CodeId} {name : String} {steps : List (Step (List Op))}
    {native : Bool} {arity : Option Nat} (hsteps : Admits d (steps.map (·.body))) :
    Conserves clientOwnership d 0 (runFunction id name steps native arity arguments)
      fun o => ↑o.toList := by
  unfold runFunction
  split
  · exact runNativeFunction_conserves hsteps
  · exact .next (runSteps_conserves hsteps) guardYielded_conserves

/-- The step that a slot answers is one of its own, so it may run after the state is back. -/
theorem runSlotStep_conserves {id : CodeId} {label : SlotLabel} {script : SlotScript (List Op)}
    {obj : Handle} (hscript : Admits d script.bodies) :
    Conserves clientOwnership d 0 (runSlotStep id label script obj) fun _ => 0 := by
  have hrun : ∀ step : Step (List Op), Admits d [step.body] → Conserves clientOwnership d 0
      (do note (.slot label); runOps [obj] step.body : Run Unit) fun _ => 0 := fun step hstep =>
    .next (note_conserves _) fun _ => runOps_conserves hstep
  refine .nextOf (withState_answers fun owns => ?_ : Answers _ fun o : Option (Step (List Op)) =>
    ∀ step, o = some step → Admits d [step.body])
    (withState_conserves obj .scripted (fun _ => []) fun owns => ?_) fun o ho => ?_
  · refine .next (nextStep_answers hscript) fun step hstep => ?_
    split
    · exact .bind fun _ => .pure hstep
    · exact .pure hstep
  · have hnext := (nextStep_conserves (d := d) id script.steps).frame
      ↑(NativeState.of .scripted owns).units
    rw [zero_add] at hnext
    apply Conserves.nextOf (nextStep_answers hscript) hnext
    intro step hstep
    split
    · exact .aside (holding_conserves owns (hrun step hstep)) fun _ =>
        .pure (add_zero _).symm
    · exact .pure (add_zero _).symm
  · cases o with
    | none => exact .pure rfl
    | some step =>
      dsimp only
      split
      · exact .next (hrun step (ho step rfl)) fun _ => .pure rfl
      · exact .pure rfl

theorem runSlot_conserves {id : CodeId} {label : SlotLabel} {script : SlotScript (List Op)}
    {obj : Handle} (hscript : Admits d script.bodies) :
    Conserves clientOwnership d 0 (runSlot id label script obj) fun o => ↑o.toList := by
  apply Conserves.next (runSlotStep_conserves hscript)
  intro o
  cases o with
  | none => exact .pure rfl
  | some step => exact .next step.yield.resolve_conserves guardYielded_conserves

theorem runHint_conserves {id : CodeId} {label : SlotLabel} {script : SlotScript (List Op)}
    {obj : Handle} (hscript : Admits d script.bodies) :
    Conserves clientOwnership d 0 (runHint id label script obj) fun _ => 0 := by
  apply Conserves.next (runSlotStep_conserves hscript)
  intro o
  split <;> exact .pure rfl

theorem runDealloc_conserves {name : String} {ops : List Op} {units : List Handle}
    (hops : Admits d [ops]) :
    Conserves clientOwnership d ↑units (runDealloc name ops units) fun _ => 0 := by
  apply Conserves.aside (note_conserves _)
  intro _
  refine (lending_conserves (H := 0) units ?_).of_eq (add_zero _) fun _ => rfl
  exact .next (runOps_conserves hops) fun _ => .emit _

theorem enterCall_conserves (id : CodeId) (arguments : List Handle) :
    Conserves clientOwnership d 0 (enterCall id arguments) fun o => ↑o.toList := by
  refine codeAt_conserves id fun o ho => ?_
  split
  · exact .next (runOps_conserves (ho _ rfl)) fun _ => .pure rfl
  · exact runFunction_conserves (ho _ rfl)
  · exact .pure rfl

theorem enterSlot_conserves (id : CodeId) (obj : Handle) :
    Conserves clientOwnership d 0 (enterSlot id obj) fun o => ↑o.toList := by
  refine codeAt_conserves id fun o ho => ?_
  split
  · exact runSlot_conserves (ho _ rfl)
  · exact .pure rfl

theorem enterHint_conserves (id : CodeId) (obj : Handle) :
    Conserves clientOwnership d 0 (enterHint id obj) fun _ => 0 := by
  refine codeAt_conserves id fun o ho => ?_
  split
  · exact runHint_conserves (ho _ rfl)
  · exact .pure rfl

theorem enterDealloc_conserves (id : CodeId) (units : List Handle) :
    Conserves clientOwnership d ↑units (enterDealloc id units) fun _ => 0 := by
  refine codeAt_conserves id fun o ho => ?_
  split
  · exact runDealloc_conserves (ho _ rfl)
  · exact releaseAll_conserves units

theorem enterConverter_conserves (id : CodeId) (t : NativeType) (v : t.Value) :
    Conserves clientOwnership d 0 (enterConverter id t v) fun o => ↑o.toList := by
  have hconvert : Conserves clientOwnership d 0 (toPeer t v : Run (Option Handle))
      (unitsIf fun h => ↑[h]) :=
    (toPeer_conserves t v).of_eq rfl fun o => by cases o <;> rfl
  exact (hooked_conserves id [] (fun h => [h]) hconvert).of_eq rfl fun o => by cases o <;> rfl

theorem userCode_lawful {env : Env Client} (henv : env.Lawful clientOwnership) :
    (userCode env).Lawful clientOwnership where
  call := fun _ id hs w hw => enterCall_conserves id hs env henv w hw
  slot := fun _ id h w hw => enterSlot_conserves id h env henv w hw
  measure := fun _ id h w hw => enterHint_conserves id h env henv w hw
  destroy := fun _ id units w hw => enterDealloc_conserves id units env henv w hw
  toPeer := fun _ id t v w hw => enterConverter_conserves id t v env henv w hw

/-- The environment of every program, however deep its user code may nest. -/
theorem tie_userCode_lawful (n : Nat) :
    (Env.tie Client.observe userCode n).Lawful clientOwnership := by
  refine tie_lawful (fun e c => ?_) (fun e c => ?_) (fun e c hc => ?_) (fun _ => userCode_lawful) n
  · unfold Client.observe
    dsimp only
    split <;> rfl
  · unfold Client.observe
    dsimp only
    split <;> rfl
  · unfold Client.observe
    dsimp only
    split <;> exact ⟨hc.ordered, hc.distinct, hc.numbered, hc.inUse, hc.plain⟩

end Causeway.Machine
