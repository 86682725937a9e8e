import Causeway.Proofs.Composition
import Causeway.Proofs.ScriptConservation
/-!
# What operations and scripts are composed of

An operation is composed of acts of the library and of what the client does by itself: it keeps its
registers, journal and code. So is all user code but dealloc slots, which have a state to dispose of
as well.

A client may be held to certain operations. Then it hands over no script with any other operation in
it, and what the library enters is made of these operations again.
-/
set_option autoImplicit false

namespace Causeway

/-- Who goes on only from what is answered may do so by other acts from anything else. -/
theorem Act.Composed.bindAnswers {U α β : Type} {own : (α : Type) → Act U α → Prop} {x : Act U α}
    {f : α → Act U β} {φ : α → Prop} (hφ : x.Answers φ) (hx : Composed own x)
    (hf : ∀ a, φ a → Composed own (f a)) : Composed own (x >>= f) := by
  classical
  let g : α → Act U β := fun a => if φ a then f a else Act.ofOption none
  have hsame : (x >>= f) = x >>= g := by
    funext env w
    rw [bind_run, bind_run]
    cases hr : x env w with
    | done a w' => exact congrArg (fun act : Act U β => act env w') (if_pos (hφ env w a w' hr)).symm
    | fault | unfinished => rfl
  have hg : ∀ a, Composed own (g a) := fun a => by
    change Composed own (if φ a then f a else Act.ofOption none)
    split
    · rename_i ha
      exact hf a ha
    · exact .reads (.ofOption none)
  rw [hsame]
  exact .bind hx hg

end Causeway

namespace Causeway.Machine

open Act

variable {α β : Type}

inductive Own : (α : Type) → Run α → Prop where
  /-- The log and the code stay, but for code that is added. -/
  | modify (f : Client → Client) (log : ∀ c, (f c).log = c.log)
      (codes : ∀ (c : Client) (i : Nat) x, c.codes[i]? = some x → (f c).codes[i]? = some x) :
      Own Unit (Act.modifyClient f)
  | enter (id : CodeId) : Own (Option (Code × Nat)) (enterCode id)
  | configure (s : Settings) : Own Unit (applySettings s)
  /-- A new object with a dealloc slot of its own. -/
  | enlist (name : String) (ops : List Op) (describe : CodeId → Descriptor)
      (dealloc : ∀ code, (describe code).dealloc = .user code) (s : NativeState) :
      Own Handle (do
        let code ← install (.dealloc name ops)
        instantiate (describe code) s)

def MadeOf (P : Op → Prop) (bodies : List (List Op)) : Prop := ∀ body ∈ bodies, ∀ op ∈ body, P op

theorem MadeOf.of_subset {P : Op → Prop} {bodies bodies' : List (List Op)} (h : MadeOf P bodies)
    (hsub : bodies' ⊆ bodies) : MadeOf P bodies' :=
  fun body hbody => h body (hsub hbody)

/-- The acts of a client that is held to some operations and to what these may apply. -/
class Held (own : (α : Type) → Run α → Prop) where
  ops : Op → Prop
  settings : Settings → Prop
  modify {f : Client → Client} (log : ∀ c, (f c).log = c.log) (codes : ∀ c, (f c).codes = c.codes) :
    Composed own (Act.modifyClient f)
  enter (id : CodeId) : Composed own (enterCode id)
  configure {s : Settings} (allowed : settings s) : Composed own (applySettings s)
  deliver {code : Code} (allowed : MadeOf ops code.bodies) : Composed own (install code)
  enlist {name : String} {body : List Op} {describe : CodeId → Descriptor}
    (dealloc : ∀ code, (describe code).dealloc = .user code) (s : NativeState)
    (allowed : MadeOf ops [body]) : Composed own (do
      let code ← install (.dealloc name body)
      instantiate (describe code) s)
  /-- There is no code but what was delivered. -/
  look {α : Type} {f : Option Code → Run α} (id : CodeId)
    (hf : ∀ o, (∀ code, o = some code → MadeOf ops code.bodies) → Composed own (f o)) :
    Composed own (codeAt id >>= f)
  scripts {command : Command (List Op)} {keep keepFailure : Option String} {quiet : Bool}
    (allowed : ops (.op command keep keepFailure quiet)) : MadeOf ops command.bodies
  applied {document : String} {keep keepFailure : Option String} {quiet : Bool} {c : Config}
    (allowed : ops (.op (.apply document) keep keepFailure quiet))
    (valid : Config.ofDocument document = .ok c) : settings c.settings

theorem observe_log (e : Log.Event) (c : Client) : (Client.observe e c).log = c.log.push e := by
  unfold Client.observe
  dsimp only
  split <;> rfl

theorem observe_codes (e : Log.Event) (c : Client) : (Client.observe e c).codes = c.codes := by
  unfold Client.observe
  dsimp only
  split <;> rfl

/-- Code that is added does not take the place of other code. -/
theorem push_codes {codes : Array (Code × Nat)} {id : CodeId} {x : Code × Nat}
    (hx : codes[id]? = some x) (added : Code × Nat) : (codes.push added)[id]? = some x := by
  have hlt : id < codes.size := (Array.getElem?_eq_some_iff.1 hx).1
  rw [Array.getElem?_push, if_neg (Nat.ne_of_lt hlt)]
  exact hx

theorem codeAt_reads (id : CodeId) : (codeAt id).Reads := Reads.client.bind fun _ => .pure _

instance : Held Own where
  ops _ := True
  settings _ := True
  modify log codes := .own (.modify _ log fun c _ _ h => by rwa [codes c])
  enter id := .own (.enter id)
  configure _ := .own (.configure _)
  deliver _ :=
    .bind (.reads .client) fun _ =>
      .bind (.own (.modify _ (fun _ => rfl) fun _ _ _ hx => push_codes hx _)) fun _ => .pure _
  enlist dealloc s _ := .own (.enlist _ _ _ dealloc s)
  look id hf := .bind (.reads (codeAt_reads id)) fun o => hf o fun _ _ _ _ _ _ => trivial
  scripts _ _ _ _ _ := trivial
  applied _ _ := trivial

variable {own : (α : Type) → Run α → Prop} [Held own]

abbrev Permits (own : (α : Type) → Run α → Prop) [Held own] (bodies : List (List Op)) : Prop :=
  MadeOf (Held.ops own) bodies

theorem modify_composed {f : Client → Client} (log : ∀ c, (f c).log = c.log)
    (codes : ∀ c, (f c).codes = c.codes) : Composed own (Act.modifyClient f) :=
  Held.modify log codes

theorem note_composed (entry : Entry) : Composed own (note entry) :=
  modify_composed (fun _ => rfl) fun _ => rfl

theorem journaled_composed {act : Run α} (hact : Composed own act) :
    Composed own (journaled act) :=
  .bind (.reads .client) fun _ => .bind (modify_composed (fun _ => rfl) fun _ => rfl) fun _ =>
    .bind hact fun _ => .bind (.reads .client) fun _ =>
      .bind (modify_composed (fun _ => rfl) fun _ => rfl) fun _ => .pure _

omit [Held own] in
theorem runBlock_composed (id : CodeId) (arguments : List Handle) :
    Composed own (runBlock id arguments) :=
  .bind (.call id arguments) fun out => releaseAll_composed out.toList

theorem installHooks_composed {hooks : List (String × Hook (List Op))}
    (hhooks : Permits own (Converter.custom hooks).bodies) : Composed own (installHooks hooks) := by
  induction hooks with
  | nil => exact .pure []
  | cons r rest ih =>
    obtain ⟨key, hook⟩ := r
    have hbefore : Permits own (Code.block hook.before).bodies :=
      hhooks.of_subset (by simp [Code.bodies, Converter.bodies])
    have hafter : Permits own (Code.block hook.after).bodies :=
      hhooks.of_subset (by simp [Code.bodies, Converter.bodies])
    have hrest : Permits own (Converter.custom rest).bodies :=
      hhooks.of_subset (by simp [Converter.bodies])
    exact .bind (Held.deliver hbefore) fun _ => .bind (Held.deliver hafter) fun _ =>
      .bind (ih hrest) fun _ => .pure _

theorem installConverter_composed {convert : Converter (List Op)}
    (hconvert : Permits own convert.bodies) : Composed own (installConverter convert) := by
  cases convert with
  | builtin => exact .pure none
  | custom hooks =>
    have hcode : ∀ hooks, Permits own (Code.converter hooks).bodies := fun _ _ hbody =>
      absurd hbody List.not_mem_nil
    exact .bind (installHooks_composed hconvert) fun hooks => .map (Held.deliver (hcode hooks)) _

theorem nextHook_composed (id : CodeId) : Composed own (nextHook id) := by
  refine .bind (Held.enter id) fun found => ?_
  split
  · exact .pure _
  · exact .pure none

theorem hooked_composed (id : CodeId) (arguments : List Handle) (units : α → List Handle)
    {convert : Run (Option α)} (hconvert : Composed own convert) :
    Composed own (hooked id arguments units convert) := by
  refine .bind (nextHook_composed id) fun found => ?_
  cases found with
  | none => exact hconvert
  | some hook =>
    refine .bind (runBlock_composed _ _) fun _ => ?_
    split
    · exact .pure none
    · refine .bind hconvert fun out => .bind (holding_composed _ (runBlock_composed _ _)) fun _ => ?_
      split
      · exact giveUp_composed _ none
      · exact .pure out

theorem convertIn_composed (code : Option CodeId) (t : NativeType) (h : Handle) :
    Composed own (convertIn code t h) := by
  cases code with
  | none => exact fromPeer_composed t h
  | some id => exact hooked_composed id [h] t.units (fromPeer_composed t h)

omit [Held own] in
theorem showValue_composed (t : NativeType) (v : t.Value) : Composed own (showValue t v) := by
  induction t with
  | i64 | i32 | usize | f64 | bool | text | unit => exact .pure _
  | object | callable => exact .map (.reads (viewObject_reads false v)) _
  | option t ih =>
    cases v with
    | none => exact .pure _
    | some v => exact .map (ih v) _
  | pair a b iha ihb => exact .bind (iha v.1) fun _ => .bind (ihb v.2) fun _ => .pure _
  | triple a b c iha ihb ihc =>
    exact .bind (iha v.1) fun _ => .bind (ihb v.2.1) fun _ => .bind (ihc v.2.2) fun _ => .pure _
  | vec t ih => exact .bind (.mapM ih v) fun _ => .pure _
  | view t ih =>
    refine .bind (View.collectSized_composed (builtinIntake_composed t) v) fun r => ?_
    cases r with
    | error f => exact .pure _
    | ok vs => exact .bind (lending_composed _ (.mapM ih vs)) fun _ => .pure _

theorem intakeOf_composed (t : NativeType) (convert deleter : Option CodeId) :
    (intakeOf t convert deleter).Composed own := by
  refine ⟨convertIn_composed convert t, fun v => ?_⟩
  cases deleter with
  | none => exact releaseAll_composed (t.units v)
  | some id =>
    exact lending_composed _ (.bind (showValue_composed t v) fun _ => .bind (note_composed _) fun _ =>
      runBlock_composed id [])

theorem drop_composed (x : Holding) : Composed own x.drop := by
  unfold Holding.drop
  split
  · exact Cursor.drop_composed (intakeOf_composed _ _ _) _
  · split
    · exact releaseAll_composed _
    · refine .bind (.reads .client) fun c => ?_
      split
      · exact modify_composed (fun _ => rfl) fun _ => rfl
      · exact releaseAll_composed _

theorem endUse_composed (n : Nat) : Composed own (endUse n) := by
  refine .bind (modify_composed (fun _ => rfl) fun _ => rfl) fun _ => .bind (.reads .client) fun c =>
    ?_
  split
  · exact .pure ()
  · exact .bind (modify_composed (fun _ => rfl) fun _ => rfl) fun _ => releaseAll_composed _

theorem whileUsing_composed (n : Nat) {act : Run α} (hact : Composed own act) :
    Composed own (whileUsing n act) :=
  .bind (modify_composed (fun _ => rfl) fun _ => rfl) fun _ =>
    .bind (.onFault hact (endUse_composed n)) fun _ => .bind (endUse_composed n) fun _ => .pure _

theorem newShare_composed : Composed own newShare :=
  .bind (.reads .client) fun _ => .bind (modify_composed (fun _ => rfl) fun _ => rfl) fun _ => .pure _

theorem emptyRegister_composed (name : String) : Composed own (emptyRegister name) :=
  modify_composed (fun _ => rfl) fun _ => rfl

theorem store_composed (name : String) (x : Holding) : Composed own (store name x) := by
  refine .bind (.reads (register?_reads name)) fun old =>
    .bind (modify_composed (fun _ => rfl) fun _ => rfl) fun _ => ?_
  cases old with
  | none => exact .pure ()
  | some y => exact drop_composed y

theorem keep_composed (name : Option String) (x : Holding) : Composed own (keep name x) := by
  cases name with
  | none => exact drop_composed x
  | some name => exact store_composed name x

theorem storeIf_composed (name : Option String) (x : Holding) (a : α) :
    Composed own (do
      match name with
      | some name => store name x
      | none => pure ()
      pure a : Run α) := by
  cases name with
  | none => exact .bind (.pure ()) fun _ => .pure a
  | some name => exact .bind (store_composed name x) fun _ => .pure a

theorem takeOwned_composed (name : String) : Composed own (takeOwned name) := by
  refine .bind (.reads (register?_reads name)) fun found => ?_
  split
  · exact .bind (emptyRegister_composed name) fun _ => .pure _
  · exact .pure none

theorem takeFailure_composed (name : String) : Composed own (takeFailure name) := by
  refine .bind (.reads (register?_reads name)) fun found => ?_
  split
  · exact .bind (emptyRegister_composed name) fun _ => .pure _
  · exact .pure none

section

variable (fr : Frame)

theorem yieldObject_composed (o : Option Handle) : Composed own (fr.yieldObject o) := by
  cases o with
  | none => exact .pure _
  | some h =>
    exact .bind (holding_composed _ (.reads (viewObject_reads fr.quiet h))) fun _ =>
      .bind (keep_composed _ _) fun _ => .pure _

theorem yieldNative_composed (t : NativeType) (v : t.Value) : Composed own (fr.yieldNative t v) :=
  .bind (holding_composed _ (showValue_composed t v)) fun _ => .bind newShare_composed fun _ =>
    .bind (keep_composed _ _) fun _ => .pure _

theorem yieldFailure_composed (f : Failure) : Composed own (fr.yieldFailure f) :=
  storeIf_composed fr.keepFailure (.failure f) _

omit [Held own] in
theorem withObject_composed {f : Handle → Run Answer} (hf : ∀ h, Composed own (f h))
    (name : String) : Composed own (fr.withObject name f) := by
  refine .bind (.reads (objectNamed_reads _ name)) fun found => ?_
  cases found with
  | none => exact .pure _
  | some h => exact hf h

end

omit [Held own] in
theorem withOwner_composed {f : Handle → Run Answer} (hf : ∀ h, Composed own (f h))
    (name : String) : Composed own (Frame.withOwner name f) := by
  refine .bind (.reads (register?_reads name)) fun found => ?_
  split
  · exact hf _
  · exact .pure _

theorem withView_composed {f : HeldView → Run Answer} (hf : ∀ v, Composed own (f v))
    (name : String) : Composed own (Frame.withView name f) := by
  refine .bind (.reads (register?_reads name)) fun found => ?_
  split
  · exact whileUsing_composed _ (hf _)
  · exact .pure _

theorem withCallable_composed {f : HeldCallable → Run Answer} (hf : ∀ c, Composed own (f c))
    (name : String) : Composed own (Frame.withCallable name f) := by
  refine .bind (.reads (register?_reads name)) fun found => ?_
  split
  · exact whileUsing_composed _ (hf _)
  · exact .pure _

theorem withCursor_composed {f : HeldCursor → Run (HeldCursor × Answer)}
    (hf : ∀ c, Composed own (f c)) (name : String) : Composed own (Frame.withCursor name f) := by
  refine .bind (.reads (register?_reads name)) fun found => ?_
  split
  · exact .bind (emptyRegister_composed name) fun _ => .bind (hf _) fun _ =>
      .bind (store_composed _ _) fun _ => .pure _
  · exact .pure _

theorem besideCursor_composed (c : HeldCursor) {act : Run α} (hact : Composed own act) :
    Composed own (Frame.besideCursor c act) :=
  .onFault hact (drop_composed (.cursor c))

omit [Held own] in
mutual

theorem build_composed (arguments : List Handle) (v : Term) : Composed own (build arguments v) := by
  cases v with
  | null | bool | int | float | text => exact .map (.alloc rfl) _
  | list items =>
    refine .bind (buildAll_composed arguments [] items) fun hs => ?_
    cases hs with
    | none => exact .pure none
    | some hs => exact .map (.alloc rfl) _
  | tuple items =>
    refine .bind (buildAll_composed arguments [] items) fun hs => ?_
    cases hs with
    | none => exact .pure none
    | some hs => exact .map (newTuple_composed hs) _
  | set items =>
    refine .bind (buildAll_composed arguments [] items) fun hs => ?_
    cases hs with
    | none => exact .pure none
    | some hs => exact newSet_composed hs
  | ref name =>
    refine .bind (.reads (objectNamed_reads arguments name)) fun found => ?_
    cases found with
    | none => exact .map (.alloc rfl) _
    | some h => exact .map (.acquire h) _
  | iter v =>
    refine .bind (build_composed arguments v) fun o => ?_
    cases o with
    | none => exact .pure none
    | some h =>
      exact .bind (holding_composed _ (getIter_composed h)) fun it =>
        .bind (holding_composed _ (.release h)) fun _ => .pure it
  | some v => exact build_composed arguments v

theorem buildAll_composed (arguments built : List Handle) (vs : List Term) :
    Composed own (buildAll arguments built vs) := by
  cases vs with
  | nil => exact .pure _
  | cons v vs =>
    refine .bind (holding_composed built (build_composed arguments v)) fun o => ?_
    cases o with
    | none => exact giveUp_composed built none
    | some h => exact buildAll_composed arguments (built ++ [h]) vs

end

omit [Held own] in
theorem readAll_composed (units : α → List Handle) {read : Term → Run (Option α)}
    (hread : ∀ v, Composed own (read v)) (done : List α) (vs : List Term) :
    Composed own (readAll units read done vs) := by
  induction vs generalizing done with
  | nil => exact .pure _
  | cons v vs ih =>
    refine .bind (holding_composed _ (hread v)) fun o => ?_
    cases o with
    | none => exact giveUp_composed _ none
    | some a => exact ih (done ++ [a])

omit [Held own] in
theorem readValue_composed (arguments : List Handle) (t : NativeType) (v : Term) :
    Composed own (readValue arguments t v) := by
  induction t generalizing v with
  | i64 | i32 | usize | view | callable => exact .pure _
  | f64 | bool | text | unit =>
    unfold readValue
    split <;> exact .pure _
  | object => exact build_composed arguments v
  | option t ih =>
    unfold readValue
    split
    · exact .pure _
    · exact .bind (ih _) fun _ => .pure _
    · exact .pure none
  | pair a b iha ihb =>
    unfold readValue
    split
    · refine .bind (iha _) fun x => ?_
      cases x with
      | none => exact .pure none
      | some x =>
        refine .bind (holding_composed _ (ihb _)) fun y => ?_
        cases y with
        | none => exact giveUp_composed _ none
        | some y => exact .pure _
    · exact .pure none
  | triple a b c iha ihb ihc =>
    unfold readValue
    split
    · refine .bind (iha _) fun x => ?_
      cases x with
      | none => exact .pure none
      | some x =>
        refine .bind (holding_composed _ (ihb _)) fun y => ?_
        cases y with
        | none => exact giveUp_composed _ none
        | some y =>
          refine .bind (holding_composed _ (ihc _)) fun z => ?_
          cases z with
          | none => exact giveUp_composed _ none
          | some z => exact .pure _
    · exact .pure none
  | vec t ih =>
    cases v with
    | list items => exact readAll_composed t.units ih [] items
    | _ => exact .pure none

section

variable (fr : Frame)

omit [Held own] in
theorem nestObject_composed (kind : ContainerKind) (n : Nat) (h : Handle) :
    Composed own (nestObject kind n h) := by
  induction n generalizing h with
  | zero => exact .pure h
  | succ n ih =>
    cases kind with
    | tuple => exact .bind (newTuple_composed [h]) fun wrapped => ih wrapped
    | list => exact .bind (.alloc rfl) fun wrapped => ih wrapped

theorem performNew_composed (v : Term) {wrap : Handle → Run Handle}
    (hwrap : ∀ h, Composed own (wrap h)) : Composed own (performNew fr v wrap) := by
  refine .bind (build_composed fr.arguments v) fun o => ?_
  cases o with
  | none => exact .pure _
  | some h => exact .bind (hwrap h) fun h => yieldObject_composed fr (some h)

theorem performDrop_composed (name : String) : Composed own (performDrop name) := by
  refine .bind (.reads (register?_reads name)) fun found => ?_
  cases found with
  | none => exact .pure _
  | some x =>
    exact .bind (emptyRegister_composed name) fun _ => .bind (drop_composed x) fun _ => .pure _

theorem performRaw_composed (h : Handle) : Composed own (performRaw fr h) :=
  storeIf_composed fr.keep (.raw h) _

theorem performIntoRaw_composed (name : String) : Composed own (performIntoRaw fr name) := by
  refine .bind (takeOwned_composed name) fun o => ?_
  cases o with
  | none => exact .pure _
  | some h => exact performRaw_composed fr h

theorem performGiveBack_composed (name : String) : Composed own (performGiveBack name) := by
  refine .bind (takeOwned_composed name) fun o => ?_
  cases o with
  | none => exact .pure _
  | some h => exact .bind (.release h) fun _ => .pure _

theorem performMark_composed : Composed own (performMark fr) :=
  .bind (.reads stats_reads) fun s => storeIf_composed fr.keep (.mark s) _

omit [Held own] in
theorem performSince_composed (name : String) : Composed own (performSince name) := by
  refine .bind (.reads (register?_reads name)) fun found => ?_
  split
  · exact .bind (.reads stats_reads) fun _ => .pure _
  · exact .pure _

omit [Held own] in
theorem answerItems_composed (quiet : Bool) (items : Option (List Handle)) :
    Composed own (answerItems quiet items) := by
  cases items with
  | none => exact .pure _
  | some hs =>
    exact .bind (lending_composed hs (.mapM (fun h => .reads (viewObject_reads quiet h)) hs))
      fun _ => .pure _

omit [Held own] in
theorem performItems_composed (h : Handle) (kind : ContainerKind) :
    Composed own (performItems fr h kind) := by
  cases kind with
  | tuple => exact .bind (tupleItems_composed h) fun o => answerItems_composed fr.quiet o
  | list => exact .bind (listItems_composed h) fun o => answerItems_composed fr.quiet o

omit [Held own] in
theorem performAppend_composed (h : Handle) (v : Term) :
    Composed own (performAppend fr h v) := by
  refine .bind (build_composed fr.arguments v) fun o => ?_
  cases o with
  | none => exact .pure _
  | some item => exact .bind (appendItem_composed h item) fun _ => .pure _

theorem performFetch_composed : Composed own (performFetch fr) := by
  refine .bind (.swap none) fun e => ?_
  cases e with
  | none => exact .pure _
  | some e => exact storeIf_composed fr.keep (.saved e) _

theorem performRestore_composed (name : String) : Composed own (performRestore name) := by
  refine .bind (.reads (register?_reads name)) fun found => ?_
  split
  · exact .bind (emptyRegister_composed name) fun _ =>
      .bind (indicatorRaise_composed _) fun _ => .pure _
  · exact .pure _

omit [Held own] in
theorem drainTexts_composed (it : Handle) (most : Nat) : Composed own (drainTexts it most) := by
  induction most with
  | zero => exact .pure []
  | succ n ih =>
    refine .bind (iterNext_composed it) fun o => ?_
    cases o with
    | none => exact .pure []
    | some h =>
      exact .bind (lending_composed [h] (.reads (repr_reads h))) fun _ => .bind ih fun _ => .pure _

omit [Held own] in
theorem performSetArgument_composed (container : Handle) (index : Nat) (v : Term) :
    Composed own (performSetArgument fr container index v) := by
  refine .bind (build_composed fr.arguments v) fun o => ?_
  cases o with
  | none => exact .pure _
  | some h => exact .bind (setArgument_composed container index h) fun _ => .pure _

omit [Held own] in
theorem setArguments_composed (container : Handle) (index : Nat) (hs : List Handle) :
    Composed own (setArguments container index hs) := by
  induction hs generalizing index with
  | nil => exact .pure ()
  | cons h hs ih =>
    exact .bind (holding_composed hs (setArgument_composed container index h)) fun _ =>
      ih (index + 1)

theorem performCall_composed (callee : Handle) (arguments : List Term) :
    Composed own (performCall fr callee arguments) := by
  refine .bind (buildAll_composed fr.arguments [] arguments) fun o => ?_
  cases o with
  | none => exact .pure _
  | some hs =>
    exact .bind (newArguments_composed _) fun container =>
      .bind (holding_composed _ (setArguments_composed container 0 hs)) fun _ =>
        .bind (holding_composed _ (invoke_composed callee container)) fun result =>
          .bind (holding_composed _ (.release container)) fun _ => yieldObject_composed fr result

theorem performFunction_composed {name : String} {steps : List (Step (List Op))} {native : Bool}
    {arity : Option Nat} (hsteps : Permits own (Code.function name steps native arity).bodies) :
    Composed own (performFunction fr name steps native arity) :=
  .bind (Held.deliver hsteps) fun _ => .bind (.alloc rfl) fun h =>
    yieldObject_composed fr (some h)

theorem takeAll_composed (taken : List Handle) (names : List String) :
    Composed own (takeAll taken names) := by
  induction names generalizing taken with
  | nil => exact .pure _
  | cons name names ih =>
    refine .bind (takeOwned_composed name) fun o => ?_
    cases o with
    | none => exact giveUp_composed taken _
    | some h => exact ih (taken ++ [h])

theorem installSlot_composed (label : SlotLabel) {script : Option (SlotScript (List Op))}
    (hscript : Permits own (script.toList.flatMap SlotScript.bodies)) :
    Composed own (installSlot label script) := by
  cases script with
  | none => exact .pure none
  | some script =>
    have hcode : Permits own (Code.slot label script).bodies :=
      hscript.of_subset (by simp [Code.bodies])
    exact .map (Held.deliver hcode) _

theorem performNativeObject_composed {name : String}
    {iter next hint : Option (SlotScript (List Op))} (owns : List String) {onDealloc : List Op}
    (hbodies : Permits own (Command.nativeObject name iter next hint owns onDealloc).bodies) :
    Composed own (performNativeObject fr name iter next hint owns onDealloc) := by
  have hscript : ∀ script ∈ [iter, next, hint],
      Permits own (script.toList.flatMap SlotScript.bodies) := fun script hs =>
    hbodies.of_subset fun body hbody =>
      List.mem_append_left _ (List.mem_flatMap.2 ⟨script, hs, hbody⟩)
  have hdealloc : Permits own [onDealloc] := hbodies.of_subset (by simp [Command.bodies])
  refine .bind (takeAll_composed [] owns) fun r => ?_
  cases r with
  | error missing => exact .pure _
  | ok units =>
    refine .bind (installSlot_composed .iter (hscript iter (by simp))) fun iter =>
      .bind (installSlot_composed .next (hscript next (by simp))) fun next =>
        .bind (installSlot_composed .hint (hscript hint (by simp))) fun hint => ?_
    let describe (code : CodeId) : Descriptor :=
      { name, doc := "", dealloc := .user code, iter := iter.map .user, next := next.map .user,
        lengthHint := hint.map .user }
    have hnew : Composed own (do
        let code ← install (.dealloc name onDealloc)
        instantiate (describe code) (.scripted units)) :=
      Held.enlist (fun _ => rfl) (.scripted units) hdealloc
    have hyield : Composed own _ := .bind hnew fun h => yieldObject_composed fr (some h)
    have hassoc : ∀ {α β γ : Type} (x : Run α) (f : α → Run β) (g : β → Run γ),
        ((x >>= f) >>= g) = x >>= fun a => f a >>= g :=
      fun _ _ _ => funext fun _ => funext fun _ => Act.bind_assoc_run
    rwa [hassoc] at hyield

theorem performWithState_composed (h : Handle) (kind : StateKind) {body : List Op}
    (hbody : Permits own (Code.block body).bodies) : Composed own (performWithState h kind body) :=
  .bind (Held.deliver hbody) fun block =>
    .bind (.withState h kind (fun _ => [])
      (fun s => .bind (holding_composed _ (runBlock_composed block [h])) fun _ => .pure (s, ()))
      fun _ => .bind fun _ => .pure (.refl _)) fun _ => .pure _

theorem performSource_composed {t : NativeType} (source : Source t) (mode : NativeMode)
    (convert : Option CodeId) : Composed own (performSource fr source mode convert) := by
  cases mode with
  | adapter =>
    exact .bind (newAdapter_composed source convert) fun h => yieldObject_composed fr (some h)
  | iterable =>
    exact .bind (newCollection_composed source convert) fun h => yieldObject_composed fr (some h)
  | exported mode =>
    refine .bind (exportSource_composed source convert mode) fun r => ?_
    cases r with
    | ok h => exact yieldObject_composed fr (some h)
    | error f => exact yieldFailure_composed fr f

theorem performNative_composed (t : NativeType) (items : List Term) (form : SourceForm)
    (mode : NativeMode) {convert : Converter (List Op)} (hconvert : Permits own convert.bodies) :
    Composed own (performNative fr t items form mode convert) := by
  refine .bind (readAll_composed t.units (readValue_composed fr.arguments t) [] items) fun o => ?_
  cases o with
  | none => exact .pure _
  | some items =>
    exact .bind (installConverter_composed hconvert) fun code =>
      performSource_composed fr _ mode code

theorem performRange_composed (low high : Int) (inclusive : Bool) (mode : NativeMode)
    {convert : Converter (List Op)} (hconvert : Permits own convert.bodies) :
    Composed own (performRange fr low high inclusive mode convert) :=
  .bind (installConverter_composed hconvert) fun code => performSource_composed fr _ mode code

theorem performFromPeer_composed (h : Handle) (t : NativeType) {convert : Converter (List Op)}
    (hconvert : Permits own convert.bodies) : Composed own (performFromPeer fr h t convert) := by
  refine .bind (installConverter_composed hconvert) fun code =>
    .bind (convertIn_composed code t h) fun o => ?_
  cases o with
  | none => exact .pure _
  | some v => exact yieldNative_composed fr t v

theorem performToPeer_composed (t : NativeType) (v : Term) {convert : Converter (List Op)}
    (hconvert : Permits own convert.bodies) : Composed own (performToPeer fr t v convert) := by
  refine .bind (readValue_composed fr.arguments t v) fun o => ?_
  cases o with
  | none => exact .pure _
  | some v =>
    refine .bind (installConverter_composed hconvert) fun code => lending_composed _ ?_
    refine .bind (convertOut_composed code t v) fun o => ?_
    cases o with
    | none => exact .pure _
    | some h => exact yieldObject_composed fr (some h)

theorem performShow_composed (name : String) : Composed own (performShow name) := by
  refine .bind (.reads (register?_reads name)) fun found => ?_
  split
  · exact .bind (whileUsing_composed _ (showValue_composed _ _)) fun _ => .pure _
  · exact .pure _

theorem keepView_composed (h : Handle) (t : NativeType) (convert deleter : Option CodeId) :
    Composed own (keepView fr h t convert deleter) := by
  refine .bind (View.make_composed h) fun r => ?_
  cases r with
  | error f => exact yieldFailure_composed fr f
  | ok iterable =>
    exact .bind newShare_composed fun _ => .bind (keep_composed _ _) fun _ => .pure _

theorem performView_composed (h : Handle) (t : NativeType) {convert : Converter (List Op)}
    {deleter : Option (List Op)} (hconvert : Permits own convert.bodies)
    (hdeleter : Permits own deleter.toList) :
    Composed own (performView fr h t convert deleter) := by
  refine .bind (installConverter_composed hconvert) fun code => ?_
  cases deleter with
  | none => exact .bind (.pure none) fun _ => keepView_composed fr h t code _
  | some body =>
    have hcode : Permits own (Code.block body).bodies := hdeleter
    exact .bind (.map (Held.deliver hcode) _) fun _ => keepView_composed fr h t code _

theorem performViewClone_composed (v : HeldView) : Composed own (performViewClone fr v) :=
  .bind (.acquire _) fun _ => .bind newShare_composed fun _ => .bind (keep_composed _ _) fun _ =>
    .pure _

theorem performCollect_composed (v : HeldView) (into : Bool) :
    Composed own (performCollect fr v into) := by
  have hp : (intakeOf v.elem v.convert v.deleter).Composed own := intakeOf_composed _ _ _
  have hend : ∀ out, Composed own (yieldCollected fr v.elem out) := fun out => by
    cases out with
    | ok vs => exact yieldNative_composed fr (.vec v.elem) vs
    | error f => exact yieldFailure_composed fr f
  cases into with
  | true => exact .bind (View.collect_composed hp _) hend
  | false => exact .bind (View.collectSized_composed hp _) hend

theorem performForEach_composed (v : HeldView) {body : List Op}
    (hbody : Permits own (Code.block body).bodies) : Composed own (performForEach fr v body) := by
  have hp : (intakeOf v.elem v.convert v.deleter).Composed own := intakeOf_composed _ _ _
  refine .bind (Held.deliver hbody) fun block =>
    .bind (View.tryForEach_composed hp (fun seen x => ?_) _ _) fun r => ?_
  · exact .bind (showValue_composed _ _) fun _ => .bind (runBlock_composed _ _) fun _ => .pure _
  · split
    · exact .pure _
    · exact .bind (yieldFailure_composed fr _) fun _ => .pure _

theorem performBegin_composed (v : HeldView) : Composed own (performBegin fr v) := by
  have hp : (intakeOf v.elem v.convert v.deleter).Composed own := intakeOf_composed _ _ _
  refine .bind (View.begin_composed hp _) fun r => ?_
  cases r with
  | error f => exact yieldFailure_composed fr f
  | ok cursor => exact .bind (keep_composed _ _) fun _ => .pure _

omit [Held own] in
theorem answerCursor_composed (quiet : Bool) (c : HeldCursor) (value : Option Shown) :
    Composed own (answerCursor quiet c value) := by
  unfold answerCursor
  cases c.cursor.element? with
  | none => exact .bind (.pure none) fun _ => .pure _
  | some h => exact .bind (.map (.reads (viewObject_reads quiet h)) _) fun _ => .pure _

theorem performLook_composed (c : HeldCursor) : Composed own (performLook fr c) := by
  refine besideCursor_composed c ?_
  cases c.cursor.get? with
  | none => exact .bind (.pure none) fun _ => answerCursor_composed fr.quiet c _
  | some v =>
    exact .bind (.map (showValue_composed _ v) _) fun _ => answerCursor_composed fr.quiet c _

theorem HeldCursor.next_composed (c : HeldCursor) : Composed own c.next :=
  .bind (holding_composed _ (Cursor.next_composed (intakeOf_composed _ _ _) _)) fun _ => .pure _

theorem performAdvance_composed (c : HeldCursor) : Composed own (performAdvance fr c) := by
  have hp : (intakeOf c.elem c.convert c.deleter).Composed own := intakeOf_composed _ _ _
  refine .bind (holding_composed _ (Cursor.advance_composed hp _)) fun r => ?_
  obtain ⟨cursor, failure⟩ := r
  cases failure with
  | none => exact .pure _
  | some f => exact .bind (besideCursor_composed _ (yieldFailure_composed fr f)) fun _ => .pure _

theorem performNext_composed (c : HeldCursor) : Composed own (performNext fr c) := by
  refine .bind (HeldCursor.next_composed c) fun r => ?_
  obtain ⟨rest, o⟩ := r
  cases o with
  | none => exact .pure _
  | some r =>
    cases r with
    | error f => exact .bind (besideCursor_composed _ (yieldFailure_composed fr f)) fun _ => .pure _
    | ok v => exact .bind (besideCursor_composed _ (yieldNative_composed fr _ v)) fun _ => .pure _

theorem performDrainCursor_composed (c : HeldCursor) :
    Composed own (performDrainCursor fr c) := by
  refine .loop (fun s => ?_) (c, [])
  refine .bind (HeldCursor.next_composed s.1) fun r => ?_
  obtain ⟨rest, o⟩ := r
  cases o with
  | none => exact .pure _
  | some r =>
    cases r with
    | error f => exact .bind (besideCursor_composed _ (yieldFailure_composed fr f)) fun _ => .pure _
    | ok v =>
      exact .bind (besideCursor_composed _ (lending_composed _ (showValue_composed _ v))) fun _ =>
        .pure _

theorem installParams_composed {params : List (NativeType × Converter (List Op))}
    (hparams : Permits own (params.flatMap fun p => p.2.bodies)) :
    Composed own (params.mapM fun p => do pure (p.1, ← installConverter p.2)) := by
  refine .mapMOf fun p hp => ?_
  have hconvert : Permits own p.2.bodies :=
    hparams.of_subset fun body hbody => List.mem_flatMap.2 ⟨p, hp, hbody⟩
  exact .bind (installConverter_composed hconvert) fun _ => .pure _

theorem performCallable_composed (h : Handle) {params : List (NativeType × Converter (List Op))}
    (returns : NativeType) {returnConvert : Converter (List Op)} (void : Bool)
    (hparams : Permits own (params.flatMap fun p => p.2.bodies))
    (hreturn : Permits own returnConvert.bodies) :
    Composed own (performCallable fr h params returns returnConvert void) := by
  refine .bind (installParams_composed hparams) fun params =>
    .bind (installConverter_composed hreturn) fun convert =>
      .bind (makeCallable_composed h) fun r => ?_
  cases r with
  | error f => exact yieldFailure_composed fr f
  | ok target =>
    exact .bind newShare_composed fun _ => .bind (keep_composed _ _) fun _ => .pure _

theorem performCallableClone_composed (c : HeldCallable) :
    Composed own (performCallableClone fr c) :=
  .bind (.acquire _) fun _ => .bind newShare_composed fun _ => .bind (keep_composed _ _) fun _ =>
    .pure _

omit [Held own] in
theorem readArguments_composed (arguments : List Handle) (done : List Outgoing)
    (params : List (NativeType × Option CodeId)) (vs : List Term) :
    Composed own (readArguments arguments done params vs) := by
  induction params generalizing done vs with
  | nil => exact .pure _
  | cons p params ih =>
    refine .bind (holding_composed _ (readValue_composed arguments p.1 _)) fun o => ?_
    cases o with
    | none => exact giveUp_composed _ none
    | some v => exact ih _ _

theorem callWith_composed (c : HeldCallable) (arguments : List Outgoing) (t : NativeType)
    {returns : Returns Client t.Value} (hreturns : returns.Composed own) :
    Composed own (callWith fr c arguments t returns) := by
  refine .bind (Callable.call_composed _ (fun a ha => ?_) _ hreturns) fun r => ?_
  · obtain ⟨out, _, rfl⟩ := List.mem_map.1 ha
    exact convertOut_composed out.convert out.type out.value
  · cases r with
    | ok v => exact yieldNative_composed fr t v
    | error f => exact yieldFailure_composed fr f

theorem performInvokeCallable_composed (c : HeldCallable) (arguments : List Term) :
    Composed own (performInvokeCallable fr c arguments) := by
  refine .bind (readArguments_composed fr.arguments [] c.params arguments) fun o => ?_
  cases o with
  | none => exact .pure _
  | some arguments =>
    dsimp only
    split
    · exact callWith_composed fr c arguments .unit trivial
    · exact callWith_composed fr c arguments c.returns (convertIn_composed c.convert c.returns)

theorem performReflect_composed (source : FailureSource) :
    Composed own (performReflect source) := by
  cases source with
  | written f => exact .bind (reflect_composed f) fun _ => .pure _
  | register name =>
    refine .bind (takeFailure_composed name) fun o => ?_
    cases o with
    | none => exact .pure _
    | some f => exact .bind (reflect_composed f) fun _ => .pure _

theorem performGuardValue_composed (v : Term) : Composed own (performGuardValue fr v) := by
  have hend : ∀ h : Handle, Composed own
      (do fr.yieldObject (← guarded (.ok h)) : Run Answer) := fun h =>
    .bind (guarded_composed (.ok h)) fun o => yieldObject_composed fr o
  refine .bind (build_composed fr.arguments v) fun o => ?_
  cases o with
  | none => exact .bind (.alloc rfl) hend
  | some h => exact .bind (.pure h) hend

theorem performApply_composed {document : String}
    (allowed : ∀ c, Config.ofDocument document = .ok c → Held.settings own c.settings) :
    Composed own (performApply document) := by
  unfold performApply
  split
  · rename_i c valid
    exact .bind (Held.configure (allowed c valid)) fun _ => .pure _
  · exact .pure _

theorem perform_composed {command : Command (List Op)} {keep keepFailure : Option String}
    {quiet : Bool} (allowed : Held.ops own (.op command keep keepFailure quiet)) :
    Composed own (perform fr command) := by
  have hbodies : Permits own command.bodies := Held.scripts allowed
  cases command with
  | new v => exact performNew_composed fr v fun h => .pure h
  | nest v depth kind => exact performNew_composed fr v (nestObject_composed kind depth)
  | drop reg => exact performDrop_composed reg
  | clone obj =>
    exact withOwner_composed (fun h => .bind (.acquire h) fun h => yieldObject_composed fr (some h)) _
  | giveBack obj => exact performGiveBack_composed obj
  | getSelf obj =>
    exact withObject_composed fr
      (fun h => .bind (.acquire h) fun h => yieldObject_composed fr (some h)) _
  | raw obj => exact withObject_composed fr (performRaw_composed fr) _
  | intoRaw obj => exact performIntoRaw_composed fr obj
  | fromRaw obj => exact withObject_composed fr (fun h => yieldObject_composed fr (some h)) _
  | acquire obj =>
    exact withObject_composed fr (fun h => .bind (.acquire h) fun k => .reads (countOf_reads k)) _
  | release obj =>
    exact withObject_composed fr (fun h => .bind (.release h) fun _ => .reads (countOf_reads h)) _
  | inspect obj => exact withObject_composed fr (fun h => .bind (.heap _) fun _ => .pure _) _
  | inspectOwner obj => exact withOwner_composed (fun h => .bind (.heap _) fun _ => .pure _) _
  | same obj other =>
    exact withObject_composed fr (fun h => withObject_composed fr (fun k => .pure _) _) _
  | mark => exact performMark_composed fr
  | since mark => exact performSince_composed mark
  | audit => exact .map audit_composed _
  | cleanup => exact .map shutDown_composed _
  | repr obj => exact withObject_composed fr (fun h => .map (.reads (repr_reads h)) _) _
  | extract obj => exact withObject_composed fr (fun h => .reads (performExtract_reads h)) _
  | items obj kind => exact withObject_composed fr (fun h => performItems_composed fr h kind) _
  | append obj v => exact withObject_composed fr (fun h => performAppend_composed fr h v) _
  | raise kind message => exact refuse_composed kind message _
  | clear => exact .bind clear_composed fun _ => .pure _
  | fetch => exact performFetch_composed fr
  | restore reg => exact performRestore_composed reg
  | isSet => exact .map .isSet _
  | isKind kind => exact .map (.reads (holds_reads kind)) _
  | getIter obj =>
    exact withObject_composed fr (fun h => .bind (getIter_composed h) (yieldObject_composed fr)) _
  | next obj =>
    exact withObject_composed fr (fun h => .bind (iterNext_composed h) (yieldObject_composed fr)) _
  | drain obj most =>
    exact withObject_composed fr (fun h => .map (drainTexts_composed h most) _) _
  | isIterable obj => exact withObject_composed fr (fun h => .map (isIterable_composed h) _) _
  | isCallable obj => exact withObject_composed fr (fun h => .map (.reads (isCallable_reads h)) _) _
  | lengthHint obj => exact withObject_composed fr (fun h => .map (lengthHint_composed h) _) _
  | newArguments n =>
    exact .bind (newArguments_composed n) fun h => yieldObject_composed fr (some h)
  | setArgument obj index v =>
    exact withObject_composed fr (fun h => performSetArgument_composed fr h index v) _
  | invoke obj arguments =>
    exact withObject_composed fr (fun h => withObject_composed fr
      (fun k => .bind (invoke_composed h k) (yieldObject_composed fr)) _) _
  | call obj arguments =>
    exact withObject_composed fr (fun h => performCall_composed fr h arguments) _
  | function name steps native arity => exact performFunction_composed fr hbodies
  | nativeObject name iter next hint owns onDealloc =>
    exact performNativeObject_composed fr owns hbodies
  | withState obj kind body =>
    exact withObject_composed fr (fun h => performWithState_composed h kind hbodies) _
  | native t items form mode convert => exact performNative_composed fr t items form mode hbodies
  | range low high inclusive mode convert =>
    exact performRange_composed fr low high inclusive mode hbodies
  | descriptor mode =>
    cases mode with
    | iterable => exact .map (.bind (.emit _ rfl) fun _ => .pure _) _
    | adapter | exported => exact .map (.bind (.emit _ rfl) fun _ => .pure _) _
  | fromPeer obj t convert =>
    exact withObject_composed fr (fun h => performFromPeer_composed fr h t hbodies) _
  | toPeer t v convert => exact performToPeer_composed fr t v hbodies
  | «show» reg => exact performShow_composed reg
  | converterText t => exact .pure _
  | view obj t convert deleter =>
    have hconvert : Permits own convert.bodies := hbodies.of_subset (List.subset_append_left _ _)
    have hdeleter : Permits own deleter.toList := hbodies.of_subset (List.subset_append_right _ _)
    exact withObject_composed fr (fun h => performView_composed fr h t hconvert hdeleter) _
  | viewClone view => exact withView_composed (performViewClone_composed fr) _
  | viewText view => exact withView_composed (fun _ => .pure _) _
  | collect view into => exact withView_composed (fun v => performCollect_composed fr v into) _
  | forEach view body => exact withView_composed (fun v => performForEach_composed fr v hbodies) _
  | begin view => exact withView_composed (performBegin_composed fr) _
  | it it => exact withCursor_composed (performLook_composed fr) _
  | advance it => exact withCursor_composed (performAdvance_composed fr) _
  | itNext it => exact withCursor_composed (performNext_composed fr) _
  | itDrain it => exact withCursor_composed (performDrainCursor_composed fr) _
  | itText it => exact withCursor_composed (fun _ => .pure _) _
  | callable obj params returns returnConvert mode =>
    have hparams : Permits own (params.flatMap fun p => p.2.bodies) :=
      hbodies.of_subset (List.subset_append_left _ _)
    have hreturn : Permits own returnConvert.bodies :=
      hbodies.of_subset (List.subset_append_right _ _)
    exact withObject_composed fr
      (fun h => performCallable_composed fr h returns _ hparams hreturn) _
  | invokeCallable fn arguments =>
    exact withCallable_composed (fun c => performInvokeCallable_composed fr c arguments) _
  | callableClone fn => exact withCallable_composed (performCallableClone_composed fr) _
  | callableText fn => exact withCallable_composed (fun _ => .pure _) _
  | describe f => exact .pure _
  | reflect source => exact performReflect_composed source
  | guardFailure f => exact .bind (guarded_composed (.error f)) (yieldObject_composed fr)
  | guardValue v => exact performGuardValue_composed fr v
  | apply document => exact performApply_composed fun c => Held.applied allowed

end

theorem heldOp_composed (arguments : List Handle) {op : Op} (hop : Held.ops own op) :
    Composed own (runOp arguments op) := by
  obtain ⟨command, keep, keepFailure, quiet⟩ := op
  exact .bind (journaled_composed (perform_composed _ hop)) fun _ =>
    .bind (.reads .world) fun _ => .pure _

theorem heldOps_composed (arguments : List Handle) {ops : List Op}
    (hops : ∀ op ∈ ops, Held.ops own op) : Composed own (runOps arguments ops) := by
  induction ops with
  | nil => exact .pure ()
  | cons op ops ih =>
    exact .bind (heldOp_composed arguments (hops op List.mem_cons_self)) fun _ =>
      .bind (note_composed _) fun _ => ih fun op hop => hops op (List.mem_cons_of_mem _ hop)

theorem runOp_composed (arguments : List Handle) (op : Op) : Composed Own (runOp arguments op) :=
  heldOp_composed arguments trivial

theorem runOps_composed (arguments : List Handle) (ops : List Op) :
    Composed Own (runOps arguments ops) :=
  heldOps_composed arguments fun _ _ => trivial

section

variable (arguments : List Handle)

omit [Held own] in
theorem newInt_composed (i : Int64) : Composed own (newInt i) := .bind (.alloc rfl) fun _ => .pure _

omit [Held own] in
theorem sumView_composed : Composed own (sumView arguments) := by
  unfold sumView
  split
  · rename_i h _
    refine .bind (View.make_composed h) fun r => ?_
    cases r with
    | error f => exact .pure _
    | ok iterable =>
      refine .bind (holding_composed _ (View.collect_composed (builtinIntake_composed .i32) _))
        fun out => ?_
      cases out with
      | error f => exact .bind (.release iterable) fun _ => .pure _
      | ok vs => exact .bind (.release iterable) fun _ => newInt_composed _
  · exact .pure _
  · exact .pure _

omit [Held own] in
theorem applyFirst_composed : Composed own (applyFirst arguments) := by
  unfold applyFirst
  split
  · rename_i f x _
    refine .bind (fromPeer_composed .callable f) fun o => ?_
    cases o with
    | none => exact .pure _
    | some target =>
      refine .bind (holding_composed [target] (fromPeer_composed .i64 x)) fun o => ?_
      cases o with
      | none => exact .bind (.release _) fun _ => .pure _
      | some i =>
        refine .bind (holding_composed [target] (Callable.call_composed _ (fun a ha => ?_) _
          (fromPeer_composed .i64))) fun r => ?_
        · rw [List.mem_singleton.1 ha]
          exact toPeer_composed .i64 i
        · cases r with
          | error f => exact .bind (.release _) fun _ => .pure _
          | ok i =>
            exact .bind (holding_composed [target] (.alloc rfl)) fun _ =>
              .bind (.release _) fun _ => .pure _
  · exact .pure _
  · exact .pure _

omit [Held own] in
theorem Formula.run_composed (f : Formula) : Composed own (f.run arguments) := by
  cases f with
  | sumInt =>
    exact .bind (.mapM (fun h => .reads (asInt_reads h)) arguments) fun _ => newInt_composed _
  | sumFloat =>
    exact .bind (.mapM (fun h => .reads (asFloat_reads h)) arguments) fun _ =>
      .bind (.alloc rfl) fun _ => .pure _
  | count => exact newInt_composed _
  | repr =>
    exact .bind (.mapM (fun h => .reads (repr_reads h)) arguments) fun _ =>
      .bind (.alloc rfl) fun _ => .pure _
  | squareMinusTwo =>
    cases arguments with
    | nil => exact .pure _
    | cons h rest =>
      refine .bind (.reads (asFloat_reads h)) fun x => ?_
      cases x with
      | none => exact .pure _
      | some x => exact .bind (.alloc rfl) fun _ => .pure _
  | sumIter => exact sumView_composed arguments
  | apply => exact applyFirst_composed arguments

theorem Yield.resolve_composed (y : Yield) : Composed own (y.resolve arguments) := by
  induction y with
  | unit => exact .bind (.alloc rfl) fun _ => .pure _
  | nothing | length => exact .pure _
  | self =>
    cases arguments with
    | nil => exact .pure _
    | cons h rest => exact .bind (.acquire h) fun _ => .pure _
  | new v =>
    cases v with
    | none => exact .pure _
    | some v => exact .bind (build_composed arguments v) fun _ => .pure _
  | register name =>
    refine .bind (.reads (register?_reads name)) fun found => ?_
    split
    · exact .bind (.acquire _) fun _ => .pure _
    · exact .pure _
  | take name => exact .map (takeOwned_composed name) _
  | argument i =>
    unfold Yield.resolve
    split
    · exact .bind (.acquire _) fun _ => .pure _
    · exact .pure _
  | failure f => exact .pure _
  | kept name orElse ih =>
    refine .bind (takeFailure_composed name) fun o => ?_
    cases o with
    | none => exact ih
    | some f => exact .pure _
  | formula f => exact Formula.run_composed arguments f

theorem nextStep_composed (id : CodeId) (steps : List (Step (List Op))) :
    Composed own (nextStep id steps) := by
  refine .bind (Held.enter id) fun found => ?_
  cases found with
  | none => exact .pure _
  | some r => exact .pure _

theorem nextStep_madeOf {id : CodeId} {steps : List (Step (List Op))}
    (hsteps : Permits own (steps.map (·.body))) :
    (nextStep id steps).Answers fun step => ∀ op ∈ step.body, Held.ops own op := by
  have hstep : ∀ k, ∀ op ∈ (stepOf steps k).body, Held.ops own op := fun k => by
    obtain hmem | hdefault := stepOf_cases steps k
    · exact hsteps _ (List.mem_map_of_mem hmem)
    · rw [hdefault]
      exact fun _ hop => absurd hop List.not_mem_nil
  refine .bind fun found => ?_
  split <;> exact .pure (hstep _)

theorem runSteps_composed (id : CodeId) (name : String) {steps : List (Step (List Op))}
    (hsteps : Permits own (steps.map (·.body))) :
    Composed own (runSteps id name steps arguments) :=
  .bind (.mapM (fun h => .reads (repr_reads h)) arguments) fun _ => .bind (note_composed _) fun _ =>
    .bindAnswers (nextStep_madeOf hsteps) (nextStep_composed id steps) fun step hstep =>
      .bind (heldOps_composed arguments hstep) fun _ => Yield.resolve_composed arguments step.yield

omit [Held own] in
theorem guardYielded_composed (y : Yielded) : Composed own (guardYielded y) := by
  cases y with
  | ok o => exact .pure o
  | error f => exact guarded_composed (.error f)

theorem runFunction_composed (id : CodeId) (name : String) {steps : List (Step (List Op))}
    (native : Bool) (arity : Option Nat) (hsteps : Permits own (steps.map (·.body))) :
    Composed own (runFunction id name steps native arity arguments) := by
  have hrun : Composed own (runSteps id name steps arguments) :=
    runSteps_composed arguments id name hsteps
  cases native with
  | false => exact .bind hrun fun y => guardYielded_composed y
  | true =>
    change Composed own (runNativeFunction id name steps arity arguments)
    unfold runNativeFunction
    dsimp only
    split
    · exact guarded_composed _
    · refine .bind hrun fun y => ?_
      split <;> exact guarded_composed _

end

theorem runSlotStep_composed (id : CodeId) (label : SlotLabel) {script : SlotScript (List Op)}
    (obj : Handle) (hscript : Permits own script.bodies) :
    Composed own (runSlotStep id label script obj) := by
  have hrun : ∀ step : Step (List Op), (∀ op ∈ step.body, Held.ops own op) → Composed own
      (do note (.slot label); runOps [obj] step.body : Run Unit) := fun step hstep =>
    .bind (note_composed _) fun _ => heldOps_composed [obj] hstep
  refine .bindAnswers (withState_answers fun owns => ?_ : Answers _
    fun o : Option (Step (List Op)) => ∀ step, o = some step → ∀ op ∈ step.body, Held.ops own op)
    (.withState obj .scripted (fun _ => []) (fun owns => ?_) fun owns => ?_) fun o ho => ?_
  · refine .next (nextStep_madeOf hscript) fun step hstep => ?_
    split
    · exact .bind fun _ => .pure hstep
    · exact .pure hstep
  · refine .bindAnswers (nextStep_madeOf hscript) (nextStep_composed id script.steps)
      fun step hstep => ?_
    split
    · exact .bind (holding_composed owns (hrun step hstep)) fun _ => .pure _
    · exact .pure _
  · refine .bind fun step => ?_
    split
    · exact .bind fun _ => .pure (.refl _)
    · exact .pure (.refl _)
  · cases o with
    | none => exact .pure none
    | some step =>
      dsimp only
      split
      · exact .bind (hrun step (ho step rfl)) fun _ => .pure _
      · exact .pure _

theorem enterCall_composed (id : CodeId) (arguments : List Handle) :
    Composed own (enterCall id arguments) := by
  refine Held.look id fun code hcode => ?_
  split
  · exact .bind (heldOps_composed arguments (hcode _ rfl _ (List.mem_singleton.2 rfl))) fun _ =>
      .pure none
  · exact runFunction_composed arguments id _ _ _ (hcode _ rfl)
  · exact .pure none

theorem enterSlot_composed (id : CodeId) (obj : Handle) : Composed own (enterSlot id obj) := by
  refine Held.look id fun code hcode => ?_
  split
  · refine .bind (runSlotStep_composed id _ obj (hcode _ rfl)) fun o => ?_
    cases o with
    | none => exact .pure none
    | some step =>
      exact .bind (Yield.resolve_composed [obj] step.yield) fun y => guardYielded_composed y
  · exact .pure none

theorem enterHint_composed (id : CodeId) (obj : Handle) : Composed own (enterHint id obj) := by
  refine Held.look id fun code hcode => ?_
  split
  · refine .bind (runSlotStep_composed id _ obj (hcode _ rfl)) fun o => ?_
    split <;> exact .pure _
  · exact .pure none

theorem enterConverter_composed (id : CodeId) (t : NativeType) (v : t.Value) :
    Composed own (enterConverter id t v) :=
  hooked_composed id [] _ (toPeer_composed t v)

end Causeway.Machine
