import Causeway.Proofs.RegisterConservation
import Causeway.Machine.Perform
/-!
# Conservation by operations

Every command conserves units if the scripts in it are admitted. The four commands for raw units do
so under the lax discipline only, which lets units come and go.
-/
set_option autoImplicit false

namespace Causeway.Machine

open Act Machine.Frame

variable {d : Discipline} {fr : Frame}

theorem nestObject_conserves (kind : ContainerKind) (n : Nat) (h : Handle) :
    Conserves clientOwnership d {h} (nestObject kind n h) fun h => {h} := by
  induction n generalizing h with
  | zero => exact .pure rfl
  | succ n ih =>
    cases kind with
    | tuple => exact .next (newTuple_conserves [h]) fun wrapped => ih wrapped
    | list => exact .next (alloc_conserves (.list [h])) fun wrapped => ih wrapped

theorem performNew_conserves (v : Term) {wrap : Handle → Run Handle}
    (hwrap : ∀ h, Conserves clientOwnership d {h} (wrap h) fun h => {h}) :
    Conserves clientOwnership d 0 (performNew fr v wrap) fun _ => 0 := by
  apply Conserves.next (build_conserves fr.arguments v)
  intro o
  cases o with
  | none => exact .pure rfl
  | some h => exact .next (hwrap h) fun h => yieldObject_conserves fr (some h)

theorem performDrop_conserves (name : String) :
    Conserves clientOwnership d 0 (performDrop name) fun _ => 0 := by
  refine ofRegister fun o env w henv hw found => ?_
  cases o with
  | none => exact .of_act (.pure rfl) henv hw
  | some x =>
    refine empty_conserved found hw fun w' fresh ready => ?_
    exact Outcome.Conserved.bind (x := x.drop) (drop_conserved henv ready fresh)
      fun _ _ _ => ⟨.refl, rfl⟩

theorem performRaw_conserves (h : Handle) :
    Conserves clientOwnership d 0 (performRaw fr h) fun _ => 0 := by
  unfold performRaw
  cases fr.keep with
  | none => exact .pure rfl
  | some name => exact .next (store_conserves (x := .raw h) rfl name) fun _ => .pure rfl

theorem performGiveBack_conserves (name : String) :
    Conserves clientOwnership d 0 (performGiveBack name) fun _ => 0 := by
  apply Conserves.next (takeOwned_conserves name)
  intro o
  cases o with
  | none => exact .pure rfl
  | some h => exact .next (release_conserves h) fun _ => .pure rfl

theorem countOf_reads (h : Handle) : (countOf h).Reads := (Reads.heap _).bind fun _ => .pure _

theorem performMark_conserves : Conserves clientOwnership d 0 (performMark fr) fun _ => 0 := by
  apply Conserves.ask stats_reads
  intro s
  cases fr.keep with
  | none => exact .pure rfl
  | some name => exact .next (store_conserves (x := .mark s) rfl name) fun _ => .pure rfl

theorem performSince_conserves (name : String) :
    Conserves clientOwnership d 0 (performSince name) fun _ => 0 := by
  refine .ask (register?_reads name) fun o => ?_
  split
  · exact .ask stats_reads fun _ => .pure rfl
  · exact .pure rfl

theorem performExtract_reads (h : Handle) : (performExtract h).Reads :=
  (isNoneObject_reads h).bind fun _ => (asInt_reads h).bind fun _ => (asFloat_reads h).bind fun _ =>
    (asText_reads h).bind fun _ => (isTruthy_reads h).bind fun _ =>
      (lengthOf_reads h).bind fun _ => .pure _

theorem answerItems_conserves (quiet : Bool) (items : Option (List Handle)) :
    Conserves clientOwnership d (unitsIf (fun hs : List Handle => (↑hs : Multiset Handle)) items)
      (answerItems quiet items) fun _ => 0 := by
  cases items with
  | none => exact .pure rfl
  | some hs =>
    have hviews : Conserves clientOwnership d 0 (hs.mapM fun h => viewObject quiet h) fun _ => 0 :=
      .mapM fun h _ => .reads (viewObject_reads quiet h)
    exact .next ((lending_conserves hs hviews).of_eq (add_zero _) fun _ => rfl) fun _ => .pure rfl

theorem performItems_conserves (h : Handle) (kind : ContainerKind) :
    Conserves clientOwnership d 0 (performItems fr h kind) fun _ => 0 := by
  cases kind with
  | tuple => exact .next (tupleItems_conserves h) (answerItems_conserves fr.quiet)
  | list => exact .next (listItems_conserves h) (answerItems_conserves fr.quiet)

theorem performAppend_conserves (h : Handle) (v : Term) :
    Conserves clientOwnership d 0 (performAppend fr h v) fun _ => 0 := by
  apply Conserves.next (build_conserves fr.arguments v)
  intro o
  cases o with
  | none => exact .pure rfl
  | some item => exact .next (appendItem_conserves h item) fun _ => .pure rfl

theorem performFetch_conserves : Conserves clientOwnership d 0 (performFetch fr) fun _ => 0 := by
  apply Conserves.aside (swap_conserves none)
  intro e
  cases e with
  | none => exact .pure rfl
  | some e =>
    cases fr.keep with
    | none => exact .pure rfl
    | some name => exact .next (store_conserves (x := .saved e) rfl name) fun _ => .pure rfl

theorem performRestore_conserves (name : String) :
    Conserves clientOwnership d 0 (performRestore name) fun _ => 0 := by
  refine ofRegister fun o env w henv hw found => ?_
  split
  · refine empty_conserved found hw fun w' _ ready => .of_act ?_ henv ready
    exact .next (indicatorRaise_conserves _) fun _ => .pure rfl
  · exact .of_act (.pure rfl) henv hw

theorem drainTexts_conserves (it : Handle) (most : Nat) :
    Conserves clientOwnership d 0 (drainTexts it most) fun _ => 0 := by
  induction most with
  | zero => exact .pure rfl
  | succ n ih =>
    apply Conserves.next (iterNext_conserves it)
    intro o
    cases o with
    | none => exact .pure rfl
    | some h =>
      have htext := lending_conserves (O := clientOwnership) (d := d) (H := 0) [h]
        (.reads (repr_reads h))
      exact .next (htext.of_eq (add_zero _) fun _ => rfl) fun _ => .next ih fun _ => .pure rfl

theorem performSetArgument_conserves (container : Handle) (index : Nat) (v : Term) :
    Conserves clientOwnership d 0 (performSetArgument fr container index v) fun _ => 0 := by
  apply Conserves.next (build_conserves fr.arguments v)
  intro o
  cases o with
  | none => exact .pure rfl
  | some h => exact .next (setArgument_conserves container index h) fun _ => .pure rfl

theorem setArguments_conserves (container : Handle) (index : Nat) (hs : List Handle) :
    Conserves clientOwnership d ↑hs (setArguments container index hs) fun _ => 0 := by
  induction hs generalizing index with
  | nil => exact .pure rfl
  | cons h hs ih =>
    refine .bind ↑hs (holding_conserves hs (setArgument_conserves container index h))
      (coe_cons h hs) fun _ => ?_
    exact (ih (index + 1)).of_eq (zero_add _).symm fun _ => rfl

theorem performCall_conserves (callee : Handle) (arguments : List Term) :
    Conserves clientOwnership d 0 (performCall fr callee arguments) fun _ => 0 := by
  apply Conserves.next (buildAll_conserves fr.arguments [] arguments)
  intro hs
  cases hs with
  | none => exact .pure rfl
  | some hs =>
    apply Conserves.bind ↑hs (newArguments_conserves hs.length) (zero_add _).symm
    intro container
    refine .bind {container} (holding_conserves _ (setArguments_conserves container 0 hs))
      (add_comm _ _) fun _ => ?_
    refine .bind {container} (holding_conserves _ (invoke_conserves callee container)) rfl
      fun result => ?_
    refine .bind ↑result.toList (holding_conserves _ (release_conserves container))
      (add_comm _ _) fun _ => ?_
    exact (yieldObject_conserves fr result).of_eq (zero_add _).symm fun _ => rfl

theorem performFunction_conserves {name : String} {steps : List (Step (List Op))} {native : Bool}
    {arity : Option Nat} (hsteps : Admits d (Code.function name steps native arity).bodies) :
    Conserves clientOwnership d 0 (performFunction fr name steps native arity) fun _ => 0 := by
  apply Conserves.aside (install_conserves _ hsteps)
  intro code
  exact .next (allocLeaf_conserves rfl) fun h => yieldObject_conserves fr (some h)

theorem takeAll_conserves (taken : List Handle) (names : List String) :
    Conserves clientOwnership d ↑taken (takeAll taken names)
      fun r => match r with
        | .ok hs => ↑hs
        | .error _ => 0 := by
  induction names generalizing taken with
  | nil => exact .pure rfl
  | cons name names ih =>
    apply Conserves.bind ↑taken (takeOwned_conserves name) (zero_add _).symm
    intro o
    cases o with
    | none => exact .bind 0 (releaseAll_conserves taken) (by simp) fun _ => .pure rfl
    | some h =>
      refine (ih (taken ++ [h])).of_eq ?_ fun _ => rfl
      rw [coe_append, add_comm]
      rfl

theorem installSlot_conserves {label : SlotLabel} {script : Option (SlotScript (List Op))}
    (hscript : Admits d (script.toList.flatMap SlotScript.bodies)) :
    Conserves clientOwnership d 0 (installSlot label script) fun _ => 0 := by
  cases script with
  | none => exact .pure rfl
  | some script =>
    refine .map (install_conserves _ (hscript.of_subset ?_))
    simp [Code.bodies]

theorem performNativeObject_conserves {name : String}
    {iter next hint : Option (SlotScript (List Op))} {owns : List String} {onDealloc : List Op}
    (hplain : Admits d (Command.nativeObject name iter next hint owns onDealloc).bodies) :
    Conserves clientOwnership d 0 (performNativeObject fr name iter next hint owns onDealloc)
      fun _ => 0 := by
  have hslot : ∀ script ∈ [iter, next, hint],
      Admits d (script.toList.flatMap SlotScript.bodies) := fun script hs =>
    hplain.of_subset fun body hbody =>
      List.mem_append_left _ (List.mem_flatMap.2 ⟨script, hs, hbody⟩)
  have hdealloc : Admits d (Code.dealloc name onDealloc).bodies :=
    hplain.of_subset (by simp [Code.bodies, Command.bodies])
  apply Conserves.next (takeAll_conserves [] owns)
  intro r
  cases r with
  | error missing => exact .pure rfl
  | ok units =>
    apply Conserves.aside (installSlot_conserves (hslot iter (by simp)))
    intro iter
    apply Conserves.aside (installSlot_conserves (hslot next (by simp)))
    intro next
    apply Conserves.aside (installSlot_conserves (hslot hint (by simp)))
    intro hint
    apply Conserves.aside (install_conserves _ hdealloc)
    intro dealloc
    exact .next (instantiate_conserves _ (.scripted units)) fun h =>
      yieldObject_conserves fr (some h)

theorem performWithState_conserves (h : Handle) (kind : StateKind) {body : List Op}
    (hbody : Admits d [body]) :
    Conserves clientOwnership d 0 (performWithState h kind body) fun _ => 0 := by
  apply Conserves.aside (install_conserves (.block body) hbody)
  intro block
  have hlend : ∀ s : kind.State, Conserves clientOwnership d ↑(NativeState.of kind s).units
      (do holding (NativeState.of kind s).units (runBlock block [h]); pure (s, ()) :
        Run (kind.State × Unit)) fun r => ↑(NativeState.of kind r.1).units + 0 := fun s =>
    .aside (holding_conserves _ (runBlock_conserves block [h])) fun _ => .pure (add_zero _).symm
  refine .next ((withState_conserves h kind (fun _ => []) hlend).of_eq rfl fun o => ?_)
    fun _ => .pure rfl
  cases o <;> rfl

theorem performSource_conserves {t : NativeType} (source : Source t) (mode : NativeMode)
    (convert : Option CodeId) :
    Conserves clientOwnership d ↑source.units (performSource fr source mode convert)
      fun _ => 0 := by
  cases mode with
  | adapter =>
    exact .next (newAdapter_conserves source convert) fun h => yieldObject_conserves fr (some h)
  | iterable =>
    exact .next (newCollection_conserves source convert) fun h => yieldObject_conserves fr (some h)
  | exported mode =>
    apply Conserves.next (exportSource_conserves source convert mode)
    intro r
    cases r with
    | ok h => exact yieldObject_conserves fr (some h)
    | error f => exact yieldFailure_conserves fr f

theorem SourceForm.source_units {t : NativeType} (items : List t.Value) (form : SourceForm)
    (mode : NativeMode) : (form.source items mode).units = items.flatMap t.units := by
  cases form <;> cases mode <;> rfl

theorem performNative_conserves {t : NativeType} {items : List Term} {form : SourceForm}
    {mode : NativeMode} {convert : Converter (List Op)} (hconvert : Admits d convert.bodies) :
    Conserves clientOwnership d 0 (performNative fr t items form mode convert) fun _ => 0 := by
  apply Conserves.next (readAll_conserves (readValue_conserves fr.arguments t) [] items)
  intro o
  cases o with
  | none => exact .pure rfl
  | some items =>
    apply Conserves.aside (installConverter_conserves hconvert)
    intro code
    refine (performSource_conserves (form.source items mode) mode code).of_eq ?_ fun _ => rfl
    rw [SourceForm.source_units]
    rfl

theorem performRange_conserves {low high : Int} {inclusive : Bool} {mode : NativeMode}
    {convert : Converter (List Op)} (hconvert : Admits d convert.bodies) :
    Conserves clientOwnership d 0 (performRange fr low high inclusive mode convert)
      fun _ => 0 := by
  apply Conserves.aside (installConverter_conserves hconvert)
  intro code
  exact (performSource_conserves _ mode code).of_eq rfl fun _ => rfl

theorem performFromPeer_conserves {h : Handle} {t : NativeType} {convert : Converter (List Op)}
    (hconvert : Admits d convert.bodies) :
    Conserves clientOwnership d 0 (performFromPeer fr h t convert) fun _ => 0 := by
  apply Conserves.aside (installConverter_conserves hconvert)
  intro code
  apply Conserves.next (convertIn_conserves code t h)
  intro o
  cases o with
  | none => exact .pure rfl
  | some v => exact yieldNative_conserves fr t v

theorem performToPeer_conserves {t : NativeType} {v : Term} {convert : Converter (List Op)}
    (hconvert : Admits d convert.bodies) :
    Conserves clientOwnership d 0 (performToPeer fr t v convert) fun _ => 0 := by
  apply Conserves.next (readValue_conserves fr.arguments t v)
  intro o
  cases o with
  | none => exact .pure rfl
  | some v =>
    apply Conserves.aside (installConverter_conserves hconvert)
    intro code
    refine (lending_conserves (H := 0) (t.units v) ?_).of_eq (add_zero _) fun _ => rfl
    apply Conserves.next (convertOut_conserves code t v)
    intro o
    cases o with
    | none => exact .pure rfl
    | some h => exact yieldObject_conserves fr (some h)

theorem performShow_conserves (name : String) :
    Conserves clientOwnership d 0 (performShow name) fun _ => 0 := by
  refine .ask (register?_reads name) fun o => ?_
  split
  · exact .next (whileUsing_conserves _ (showValue_conserves _ _)) fun _ => .pure rfl
  · exact .pure rfl

theorem keepView_conserves (h : Handle) (t : NativeType) (convert deleter : Option CodeId) :
    Conserves clientOwnership d 0 (keepView fr h t convert deleter) fun _ => 0 := by
  apply Conserves.next (View.make_conserves h)
  intro r
  cases r with
  | error f => exact yieldFailure_conserves fr f
  | ok iterable =>
    exact keepShared_conserves (x := fun n => .view n ⟨iterable, t, convert, deleter⟩)
      (fun _ => rfl) fun _ => rfl

theorem performView_conserves {h : Handle} {t : NativeType} {convert : Converter (List Op)}
    {deleter : Option (List Op)} (hconvert : Admits d convert.bodies)
    (hdeleter : Admits d deleter.toList) :
    Conserves clientOwnership d 0 (performView fr h t convert deleter) fun _ => 0 := by
  apply Conserves.aside (installConverter_conserves hconvert)
  intro code
  cases deleter with
  | none => exact keepView_conserves h t code none
  | some body =>
    exact .aside (.map (install_conserves (.block body) hdeleter)) (keepView_conserves h t code)

theorem performViewClone_conserves (v : HeldView) :
    Conserves clientOwnership d 0 (performViewClone fr v) fun _ => 0 := by
  refine .next (acquire_conserves (K := fun k => {k}) rfl) fun iterable => ?_
  exact keepShared_conserves (x := fun n => .view n { v with iterable }) (fun _ => rfl)
    fun _ => rfl

theorem yieldCollected_conserves (t : NativeType) (out : Except Failure (List t.Value)) :
    Conserves clientOwnership d (unitsOk (fun vs => ↑(vs.flatMap t.units)) out)
      (yieldCollected fr t out) fun _ => 0 := by
  cases out with
  | ok vs => exact yieldNative_conserves fr (.vec t) vs
  | error f => exact yieldFailure_conserves fr f

theorem performCollect_conserves (v : HeldView) (into : Bool) :
    Conserves clientOwnership d 0 (performCollect fr v into) fun _ => 0 := by
  have hend : ∀ out, Conserves clientOwnership d _ (yieldCollected fr v.elem out) fun _ => 0 :=
    yieldCollected_conserves v.elem
  unfold performCollect
  split
  · exact .next (View.collect_conserves v.intake_lawful v.iterable) hend
  · exact .next (View.collectSized_conserves v.intake_lawful v.iterable) hend

theorem performForEach_conserves (v : HeldView) {body : List Op} (hbody : Admits d [body]) :
    Conserves clientOwnership d 0 (performForEach fr v body) fun _ => 0 := by
  apply Conserves.aside (install_conserves (.block body) hbody)
  intro block
  refine .next (View.tryForEach_conserves v.intake_lawful (fun seen x => ?_) v.iterable [])
    fun r => ?_
  · apply Conserves.next (showValue_conserves v.elem x)
    intro shown
    exact .next (runBlock_conserves block fr.arguments) fun _ => .pure rfl
  · obtain ⟨out, seen⟩ := r
    cases out with
    | ok _ => exact .pure rfl
    | error f => exact .next (yieldFailure_conserves fr f) fun _ => .pure rfl

theorem performBegin_conserves (v : HeldView) :
    Conserves clientOwnership d 0 (performBegin fr v) fun _ => 0 := by
  apply Conserves.next (View.begin_conserves v.intake_lawful v.iterable)
  intro r
  cases r with
  | error f => exact yieldFailure_conserves fr f
  | ok cursor =>
    exact .next (keep_conserves (x := .cursor ⟨v.elem, v.convert, v.deleter, cursor⟩) rfl fr.keep)
      fun _ => .pure rfl

theorem answerCursor_conserves (quiet : Bool) (c : HeldCursor) (value : Option Shown) :
    Conserves clientOwnership d ↑(Holding.cursor c).units (answerCursor quiet c value)
      fun r => ↑(Holding.cursor r.1).units := by
  unfold answerCursor
  cases c.cursor.element? with
  | none => exact .pure rfl
  | some h => exact .ask ((viewObject_reads quiet h).map _) fun _ => .pure rfl

theorem performLook_conserves (c : HeldCursor) :
    Conserves clientOwnership d ↑(Holding.cursor c).units (performLook fr c)
      fun r => ↑(Holding.cursor r.1).units := by
  refine besideCursor_conserves c ?_
  cases c.cursor.get? with
  | none => exact answerCursor_conserves fr.quiet c none
  | some v =>
    exact .aside (.map (showValue_conserves c.elem v)) (answerCursor_conserves fr.quiet c)

/-- A step keeps the rest of the iterator, and yields a value with units of its own. -/
theorem HeldCursor.next_conserves (c : HeldCursor) :
    Conserves clientOwnership d ↑(Holding.cursor c).units c.next
      fun r => ↑(Holding.cursor r.1).units +
        unitsIf (unitsOk fun v => ↑(c.elem.units v)) r.2 := by
  apply Conserves.next (holding_conserves _ (Cursor.next_conserves c.intake_lawful c.cursor))
  intro r
  exact .pure rfl

theorem performAdvance_conserves (c : HeldCursor) :
    Conserves clientOwnership d ↑(Holding.cursor c).units (performAdvance fr c)
      fun r => ↑(Holding.cursor r.1).units := by
  refine .next (holding_conserves _ (Cursor.advance_conserves c.intake_lawful c.cursor))
    fun r => ?_
  obtain ⟨cursor, failure⟩ := r
  cases failure with
  | none => exact .pure rfl
  | some f =>
    exact .aside (besideCursor_conserves _ (yieldFailure_conserves fr f)) fun _ => .pure rfl

theorem performNext_conserves (c : HeldCursor) :
    Conserves clientOwnership d ↑(Holding.cursor c).units (performNext fr c)
      fun r => ↑(Holding.cursor r.1).units := by
  apply Conserves.next c.next_conserves
  intro r
  obtain ⟨rest, o⟩ := r
  rcases o with _ | f | v
  · exact .pure (add_zero _)
  · refine .of_eq ?_ (add_zero _).symm fun _ => rfl
    exact .aside (besideCursor_conserves rest (yieldFailure_conserves fr f)) fun _ => .pure rfl
  · refine .bind ↑(Holding.cursor rest).units
      (besideCursor_conserves rest (yieldNative_conserves fr c.elem v)) (add_comm _ _) fun _ => ?_
    exact .pure (zero_add _)

theorem performDrainCursor_conserves (c : HeldCursor) :
    Conserves clientOwnership d ↑(Holding.cursor c).units (performDrainCursor fr c)
      fun r => ↑(Holding.cursor r.1).units := by
  refine .loop (I := fun s : HeldCursor × List (Except Failure Shown) =>
    ↑(Holding.cursor s.1).units) (fun s => ?_) (c, [])
  obtain ⟨c, out⟩ := s
  apply Conserves.next c.next_conserves
  intro r
  obtain ⟨rest, o⟩ := r
  rcases o with _ | f | v
  · exact .pure (add_zero _)
  · refine .of_eq ?_ (add_zero _).symm fun _ => rfl
    exact .aside (besideCursor_conserves rest (yieldFailure_conserves fr f)) fun _ => .pure rfl
  · have hshow := lending_conserves (H := 0) (c.elem.units v)
      (showValue_conserves (d := d) c.elem v)
    refine .bind ↑(Holding.cursor rest).units
      (besideCursor_conserves rest (hshow.of_eq (add_zero _) fun _ => rfl)) (add_comm _ _)
      fun _ => ?_
    exact .pure (zero_add _)

theorem installParams_conserves {params : List (NativeType × Converter (List Op))}
    (hparams : Admits d (params.flatMap fun p => p.2.bodies)) :
    Conserves clientOwnership d 0 (installParams params) fun _ => 0 := by
  refine .mapM fun p hp => .aside (installConverter_conserves ?_) fun _ => .pure rfl
  exact hparams.of_subset fun body hbody => List.mem_flatMap.2 ⟨p, hp, hbody⟩

theorem performCallable_conserves {h : Handle} {params : List (NativeType × Converter (List Op))}
    {returns : NativeType} {returnConvert : Converter (List Op)} {void : Bool}
    (hparams : Admits d (params.flatMap fun p => p.2.bodies))
    (hreturn : Admits d returnConvert.bodies) :
    Conserves clientOwnership d 0 (performCallable fr h params returns returnConvert void)
      fun _ => 0 := by
  apply Conserves.aside (installParams_conserves hparams)
  intro params
  apply Conserves.aside (installConverter_conserves hreturn)
  intro convert
  apply Conserves.next (makeCallable_conserves h)
  intro r
  cases r with
  | error f => exact yieldFailure_conserves fr f
  | ok target =>
    exact keepShared_conserves (x := fun n => .callable n ⟨target, params, returns, convert, void⟩)
      (fun _ => rfl) fun _ => rfl

theorem performCallableClone_conserves (c : HeldCallable) :
    Conserves clientOwnership d 0 (performCallableClone fr c) fun _ => 0 := by
  refine .next (acquire_conserves (K := fun k => {k}) rfl) fun target => ?_
  exact keepShared_conserves (x := fun n => .callable n { c with target }) (fun _ => rfl)
    fun _ => rfl

theorem readArguments_conserves (arguments : List Handle) (done : List Outgoing)
    (params : List (NativeType × Option CodeId)) (vs : List Term) :
    Conserves clientOwnership d ↑(done.flatMap Outgoing.units)
      (readArguments arguments done params vs)
      (unitsIf fun as => ↑(as.flatMap Outgoing.units)) := by
  induction params generalizing done vs with
  | nil => exact .pure rfl
  | cons param params ih =>
    obtain ⟨t, convert⟩ := param
    refine .bind _ (holding_conserves _ (readValue_conserves arguments t _)) (zero_add _).symm
      fun o => ?_
    cases o with
    | none => exact (refuse_conserves _ _).of_eq (zero_add _).symm fun _ => rfl
    | some v =>
      refine (ih (done ++ [⟨t, v, convert⟩]) vs.tail).of_eq ?_ fun _ => rfl
      rw [List.flatMap_append, coe_append, add_comm]
      simp [unitsIf, Outgoing.units]

theorem callWith_conserves (c : HeldCallable) (arguments : List Outgoing) (t : NativeType)
    {returns : Returns Client t.Value} (hreturns : returns.Lawful clientOwnership)
    (hunits : ∀ v, returns.units v = t.units v) :
    Conserves clientOwnership d ↑(arguments.flatMap Outgoing.units)
      (callWith fr c arguments t returns) fun _ => 0 := by
  have harguments : ∀ a ∈ arguments.map Outgoing.run,
      Conserves clientOwnership d 0 a fun o => ↑o.toList := by
    intro a ha
    obtain ⟨a, _, rfl⟩ := List.mem_map.1 ha
    exact convertOut_conserves a.convert a.type a.value
  apply Conserves.next (Callable.call_conserves c.target harguments _ hreturns)
  intro r
  cases r with
  | ok v =>
    rw [unitsOk, hunits]
    exact yieldNative_conserves fr t v
  | error f => exact yieldFailure_conserves fr f

theorem performInvokeCallable_conserves (c : HeldCallable) (arguments : List Term) :
    Conserves clientOwnership d 0 (performInvokeCallable fr c arguments) fun _ => 0 := by
  apply Conserves.next (readArguments_conserves fr.arguments [] c.params arguments)
  intro o
  cases o with
  | none => exact .pure rfl
  | some arguments =>
    dsimp only
    split
    · exact callWith_conserves c arguments .unit trivial fun _ => rfl
    · exact callWith_conserves c arguments c.returns
        (fun _ h => convertIn_conserves c.convert c.returns h) fun _ => rfl

theorem performReflect_conserves (source : FailureSource) :
    Conserves clientOwnership d 0 (performReflect source) fun _ => 0 := by
  cases source with
  | written f => exact .next (reflect_conserves f) fun _ => .pure rfl
  | register name =>
    apply Conserves.next (takeFailure_conserves name)
    intro o
    cases o with
    | none => exact .pure rfl
    | some f => exact .next (reflect_conserves f) fun _ => .pure rfl

theorem performGuardValue_conserves (v : Term) :
    Conserves clientOwnership d 0 (performGuardValue fr v) fun _ => 0 := by
  have hend : ∀ h : Handle, Conserves clientOwnership d {h}
      (do fr.yieldObject (← guarded (.ok h)) : Run Answer) fun _ => 0 := fun h =>
    .next (guarded_conserves (.ok h)) fun o => yieldObject_conserves fr o
  apply Conserves.next (build_conserves fr.arguments v)
  intro o
  cases o with
  | none => exact .next (allocLeaf_conserves rfl) hend
  | some h => exact hend h

theorem performApply_conserves (document : String) :
    Conserves clientOwnership d 0 (performApply document) fun _ => 0 := by
  unfold performApply
  split
  · exact .next (.of_heap_eq fun _ _ _ => ⟨(), _, rfl, rfl, rfl, rfl, fun _ => id⟩)
      fun _ => .pure rfl
  · exact .pure rfl

theorem performIntoRaw_conserves (name : String) :
    Conserves clientOwnership .lax 0 (performIntoRaw fr name) fun _ => 0 := by
  apply Conserves.next (takeOwned_conserves name)
  intro o
  cases o with
  | none => exact .pure rfl
  | some h => exact (performRaw_conserves h).anyUnits _ _

/-- What is made of a unit without an owner, and what is left behind without one, only the lax
discipline allows. -/
theorem performRawUnits_conserves {command : Command (List Op)} (hraw : command.isRaw = true) :
    Conserves clientOwnership .lax 0 (perform fr command) fun _ => 0 := by
  cases command with
  | intoRaw obj => exact performIntoRaw_conserves obj
  | fromRaw obj =>
    exact withObject_conserves fun h => (yieldObject_conserves fr (some h)).anyUnits 0 _
  | acquire obj =>
    apply withObject_conserves
    intro h
    apply Conserves.next (acquire_conserves (K := fun k => {k}) rfl)
    intro k
    exact (Conserves.reads (H := 0) (countOf_reads k)).anyUnits _ _
  | release obj =>
    refine withObject_conserves fun h => .next ((release_conserves h).anyUnits 0 fun _ => 0) ?_
    exact fun _ => .reads (countOf_reads h)
  | _ => cases hraw

theorem perform_conserves {command : Command (List Op)} (hraw : d = .strict → command.isRaw = false)
    (hbodies : Admits d command.bodies) :
    Conserves clientOwnership d 0 (perform fr command) fun _ => 0 := by
  have rawUnits : command.isRaw = true →
      Conserves clientOwnership d 0 (perform fr command) fun _ => 0 := by
    intro h
    cases d with
    | strict => exact absurd h (by simp [hraw rfl])
    | lax => exact performRawUnits_conserves h
  cases command with
  | new v => exact performNew_conserves v fun _ => .pure rfl
  | nest v depth kind => exact performNew_conserves v (nestObject_conserves kind depth)
  | drop reg => exact performDrop_conserves reg
  | clone obj =>
    exact withOwner_conserves fun h => .next (acquire_conserves rfl) fun h =>
      yieldObject_conserves fr (some h)
  | giveBack obj => exact performGiveBack_conserves obj
  | getSelf obj =>
    exact withObject_conserves fun h => .next (acquire_conserves rfl) fun h =>
      yieldObject_conserves fr (some h)
  | raw obj => exact withObject_conserves performRaw_conserves
  | intoRaw obj | fromRaw obj | acquire obj | release obj => exact rawUnits rfl
  | inspect obj => exact withObject_conserves fun h => .ask (.heap _) fun _ => .pure rfl
  | inspectOwner obj => exact withOwner_conserves fun h => .ask (.heap _) fun _ => .pure rfl
  | same obj other => exact withObject_conserves fun h => withObject_conserves fun k => .pure rfl
  | mark => exact performMark_conserves
  | since mark => exact performSince_conserves mark
  | audit => exact .map audit_conserves
  | cleanup => exact .map shutDown_conserves
  | repr obj => exact withObject_conserves fun h => .map (.reads (repr_reads h))
  | extract obj => exact withObject_conserves fun h => .reads (performExtract_reads h)
  | items obj kind => exact withObject_conserves fun h => performItems_conserves h kind
  | append obj v => exact withObject_conserves fun h => performAppend_conserves h v
  | raise kind message => exact .next (raise_conserves kind message) fun _ => .pure rfl
  | clear => exact .next clear_conserves fun _ => .pure rfl
  | fetch => exact performFetch_conserves
  | restore reg => exact performRestore_conserves reg
  | isSet => exact .map (.reads isSet_reads)
  | isKind kind => exact .map (.reads (holds_reads kind))
  | getIter obj =>
    exact withObject_conserves fun h => .next (getIter_conserves h) (yieldObject_conserves fr)
  | next obj =>
    exact withObject_conserves fun h => .next (iterNext_conserves h) (yieldObject_conserves fr)
  | drain obj most => exact withObject_conserves fun h => .map (drainTexts_conserves h most)
  | isIterable obj => exact withObject_conserves fun h => .map (isIterable_conserves h)
  | isCallable obj => exact withObject_conserves fun h => .map (.reads (isCallable_reads h))
  | lengthHint obj => exact withObject_conserves fun h => .map (lengthHint_conserves h)
  | newArguments n =>
    exact .next (newArguments_conserves n) fun h => yieldObject_conserves fr (some h)
  | setArgument obj index v =>
    exact withObject_conserves fun h => performSetArgument_conserves h index v
  | invoke obj arguments =>
    exact withObject_conserves fun h => withObject_conserves fun k =>
      .next (invoke_conserves h k) (yieldObject_conserves fr)
  | call obj arguments => exact withObject_conserves fun h => performCall_conserves h arguments
  | function name steps native arity => exact performFunction_conserves hbodies
  | nativeObject name iter next hint owns onDealloc => exact performNativeObject_conserves hbodies
  | withState obj kind body =>
    exact withObject_conserves fun h => performWithState_conserves h kind hbodies
  | native t items form mode convert => exact performNative_conserves hbodies
  | range low high inclusive mode convert => exact performRange_conserves hbodies
  | descriptor mode =>
    cases mode with
    | iterable => exact .map (.next (.emit _) fun _ => .pure rfl)
    | adapter | exported => exact .map (.next (.emit _) fun _ => .pure rfl)
  | fromPeer obj t convert =>
    exact withObject_conserves fun h => performFromPeer_conserves hbodies
  | toPeer t v convert => exact performToPeer_conserves hbodies
  | «show» reg => exact performShow_conserves reg
  | converterText t => exact .pure rfl
  | view obj t convert deleter =>
    have hconvert : Admits d convert.bodies := hbodies.of_subset (List.subset_append_left _ _)
    have hdeleter : Admits d deleter.toList := hbodies.of_subset (List.subset_append_right _ _)
    exact withObject_conserves fun h => performView_conserves hconvert hdeleter
  | viewClone view => exact withView_conserves performViewClone_conserves
  | viewText view => exact withView_conserves fun _ => .pure rfl
  | collect view into => exact withView_conserves fun v => performCollect_conserves v into
  | forEach view body => exact withView_conserves fun v => performForEach_conserves v hbodies
  | begin view => exact withView_conserves performBegin_conserves
  | it it => exact withCursor_conserves performLook_conserves
  | advance it => exact withCursor_conserves performAdvance_conserves
  | itNext it => exact withCursor_conserves performNext_conserves
  | itDrain it => exact withCursor_conserves performDrainCursor_conserves
  | itText it => exact withCursor_conserves fun _ => .pure rfl
  | callable obj params returns returnConvert mode =>
    have hparams : Admits d (params.flatMap fun p => p.2.bodies) :=
      hbodies.of_subset (List.subset_append_left _ _)
    have hreturn : Admits d returnConvert.bodies :=
      hbodies.of_subset (List.subset_append_right _ _)
    exact withObject_conserves fun h => performCallable_conserves hparams hreturn
  | invokeCallable fn arguments =>
    exact withCallable_conserves fun c => performInvokeCallable_conserves c arguments
  | callableClone fn => exact withCallable_conserves performCallableClone_conserves
  | callableText fn => exact withCallable_conserves fun _ => .pure rfl
  | describe f => exact .pure rfl
  | reflect source => exact performReflect_conserves source
  | guardFailure f => exact .next (guarded_conserves (.error f)) (yieldObject_conserves fr)
  | guardValue v => exact performGuardValue_conserves v
  | apply document => exact performApply_conserves document

end Causeway.Machine
