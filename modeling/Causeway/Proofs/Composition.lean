import Causeway.Proofs.CallConservation
import Causeway.Proofs.Custody
import Causeway.Export
/-!
# What the acts of the library are composed of

There are few things the library does to the world by itself. It takes units and gives them back,
makes objects, changes payloads in a handful of ways, lends states, tells the client of events and
sets the indicator; everything else is sequence, choice and repetition, or user code. Here this is
shown once, act by act, so that what each of these few things keeps is kept by every act.

A client may have acts of its own among them. Its user code is entered through the environment.
-/
set_option autoImplicit false

namespace Causeway

variable {U α β σ : Type}

def Log.Event.isAside : Log.Event → Bool
  | .allocated _ _ | .acquired _ _ | .released _ _ | .deallocated _ _ | .stateDropped _ => false
  | _ => true

/-- What the library does to the payload of a live object that is no iterator and has no state. -/
inductive Payload.Grows : Payload → Payload → Prop where
  | append (items : List Handle) (item : Handle) : Grows (.list items) (.list (items ++ [item]))
  | fill (slots : List (Option Handle)) (i : Nat) (h : Handle) :
      Grows (.tuple slots) (.tuple (slots.set i (some h)))

theorem Payload.Grows.plain {p p' : Payload} (h : p.Grows p') :
    p.hasState? = Option.none ∧ p'.hasState? = Option.none := by
  cases h <;> exact ⟨rfl, rfl⟩

def NativeState.Lasts (s s' : NativeState) : Prop :=
  ∀ a, s = .adapter a → a.peeked = some none → s' = .adapter a

theorem NativeState.Lasts.refl (s : NativeState) : s.Lasts s := fun _ h _ => h

def nextItem (it : Handle) : Act U (Option Handle) := do
  match ← Act.heap (·.payload? it) with
  | some (.iterator seq position) => sequenceNext it seq position
  | _ => pure none

namespace Act

inductive Composed (own : (α : Type) → Act U α → Prop) : {α : Type} → Act U α → Prop where
  | own {α : Type} {act : Act U α} (h : own α act) : Composed own act
  | reads {α : Type} {act : Act U α} (h : act.Reads) : Composed own act
  | bind {α β : Type} {x : Act U α} {f : α → Act U β} (hx : Composed own x)
      (hf : ∀ a, Composed own (f a)) : Composed own (x >>= f)
  | fault {α : Type} (c : Fault) : Composed own (Act.fault c : Act U α)
  | onFault {α : Type} {act : Act U α} {cleanup : Act U Unit} (hact : Composed own act)
      (hclean : Composed own cleanup) : Composed own (act.onFault cleanup)
  | loop {α β : Type} {body : β → Act U (β ⊕ α)} (hbody : ∀ b, Composed own (body b)) (b : β) :
      Composed own (Act.loop body b)
  | emit (e : Log.Event) (aside : e.isAside = true) : Composed own (Act.emit e)
  | swap (next : Option Raised) : Composed own (Indicator.swap next)
  | acquire (h : Handle) : Composed own (acquire h)
  | release (h : Handle) : Composed own (release h)
  | alloc {p : Payload} (plain : p.hasState? = none) : Composed own (alloc p)
  | instantiate {d : Descriptor} (s : NativeState) (drop : d.dealloc = .drop) :
      Composed own (instantiate d s)
  /-- From each world, on as another act does, perhaps with a payload grown first. -/
  | revise {α : Type} {act : Act U α} (next : World U → Act U α)
      (hnext : ∀ w, Composed own (next w))
      (agree : ∀ w, (∀ env, act env w = next w env w) ∨ ∃ h p p', w.heap.payload? h = some p ∧
        p.Grows p' ∧ ∀ env, act env w = next w env { w with heap := w.heap.setPayload h p' }) :
      Composed own act
  | nextItem (it : Handle) : Composed own (nextItem it)
  | withState {α : Type} (obj : Handle) (kind : StateKind) (units : α → List Handle)
      {f : kind.State → Act U (kind.State × α)} (hf : ∀ s, Composed own (f s))
      (lasts : ∀ s, (f s).Answers fun r => (NativeState.of kind s).Lasts (.of kind r.1)) :
      Composed own (withState obj kind units f)
  | call (code : CodeId) (hs : List Handle) : Composed own fun env w => env.hooks.call code hs w
  | slot (code : CodeId) (h : Handle) : Composed own fun env w => env.hooks.slot code h w
  | measure (code : CodeId) (h : Handle) : Composed own fun env w => env.hooks.measure code h w
  | toPeer (code : CodeId) (t : NativeType) (v : t.Value) :
      Composed own fun env w => env.hooks.toPeer code t v w

variable {own : (α : Type) → Act U α → Prop}

namespace Composed

theorem pure (a : α) : Composed own (Pure.pure a : Act U α) := .reads (.pure a)

theorem heap (f : Heap → α) : Composed own (Act.heap f : Act U α) := .reads (.heap f)

theorem isSet : Composed own (Indicator.isSet : Act U Bool) := .reads isSet_reads

theorem revised {act : Act U α} (h : ∀ w, ∃ next, Composed own next ∧
    ((∀ env, act env w = next env w) ∨ ∃ h p p', w.heap.payload? h = some p ∧ p.Grows p' ∧
      ∀ env, act env w = next env { w with heap := w.heap.setPayload h p' })) :
    Composed own act := by
  choose next hnext agree using h
  exact .revise next hnext agree

theorem map {x : Act U α} (hx : Composed own x) (f : α → β) : Composed own (f <$> x) :=
  .bind hx fun _ => .pure _

theorem mapMOf {f : β → Act U α} {bs : List β} (hf : ∀ b ∈ bs, Composed own (f b)) :
    Composed own (bs.mapM f) := by
  have rounds : ∀ bs made, (∀ b ∈ bs, Composed own (f b)) →
      Composed own (List.mapM.loop f bs made) := by
    intro bs
    induction bs with
    | nil => exact fun _ _ => .pure _
    | cons b bs ih =>
      intro made hf
      exact .bind (hf b List.mem_cons_self) fun a =>
        ih (a :: made) fun b hb => hf b (List.mem_cons_of_mem _ hb)
  exact rounds bs [] hf

theorem mapM {f : β → Act U α} (hf : ∀ b, Composed own (f b)) (bs : List β) :
    Composed own (bs.mapM f) :=
  mapMOf fun b _ => hf b

end Composed

end Act

open Act

variable {own : (α : Type) → Act U α → Prop}

theorem releaseAll_composed (hs : List Handle) : Composed own (releaseAll hs : Act U Unit) := by
  induction hs with
  | nil => exact .pure ()
  | cons h hs ih => exact .bind (.onFault (.release h) ih) fun _ => ih

theorem holding_composed (units : List Handle) {act : Act U α} (hact : Composed own act) :
    Composed own (holding units act) :=
  .onFault hact (releaseAll_composed units)

theorem lending_composed (units : List Handle) {act : Act U α} (hact : Composed own act) :
    Composed own (lending units act) :=
  .bind (holding_composed units hact) fun _ => .bind (releaseAll_composed units) fun _ => .pure _

theorem giveUp_composed (units : List Handle) (a : α) :
    Composed own (do releaseAll units; pure a : Act U α) :=
  .bind (releaseAll_composed units) fun _ => .pure a

theorem acquireBehind_composed (made hs : List Handle) :
    Composed own (acquireBehind made hs : Act U (List Handle)) := by
  induction hs generalizing made with
  | nil => exact .pure made
  | cons h hs ih => exact .bind (holding_composed made (.acquire h)) fun k => ih (made ++ [k])

theorem acquireAll_composed (hs : List Handle) :
    Composed own (acquireAll hs : Act U (List Handle)) :=
  acquireBehind_composed [] hs

theorem reserve_composed (count width : Nat) :
    Composed own (Act.reserve count width : Act U Unit) := by
  unfold Act.reserve
  split
  · exact .pure ()
  · exact .fault _

theorem indicatorRaise_composed (e : Raised) : Composed own (Indicator.raise e : Act U Unit) := by
  refine .bind (.emit _ rfl) fun _ => .bind (.swap _) fun previous => ?_
  cases previous with
  | none => exact .pure ()
  | some previous =>
    refine .bind (.reads .settings) fun settings => ?_
    split
    · exact .fault _
    · exact .emit _ rfl

theorem putBack_composed (e : Option Raised) :
    Composed own (Indicator.putBack e : Act U Unit) := by
  cases e with
  | none => exact .pure ()
  | some e => exact indicatorRaise_composed e

theorem clear_composed : Composed own (Indicator.clear : Act U Unit) := by
  refine .bind (.swap none) fun e => ?_
  cases e with
  | none => exact .pure ()
  | some e => exact .emit _ rfl

theorem raise_composed (kind : ExceptionKind) (message : String) :
    Composed own (raise kind message : Act U Unit) :=
  indicatorRaise_composed _

theorem refuse_composed (kind : ExceptionKind) (message : String) (a : α) :
    Composed own (do raise kind message; pure a : Act U α) :=
  .bind (raise_composed kind message) fun _ => .pure a

theorem reflect_composed (f : Failure) : Composed own (f.reflect : Act U Unit) := by
  unfold Failure.reflect
  split
  · exact .bind clear_composed fun _ => raise_composed _ _
  · refine .bind .isSet fun pending => ?_
    split
    · exact .pure ()
    · exact raise_composed _ _

theorem guarded_composed (r : Except Failure Handle) :
    Composed own (guarded r : Act U (Option Handle)) := by
  cases r with
  | ok h => exact .pure _
  | error f => exact .bind (reflect_composed f) fun _ => .pure none

theorem uniqueItems_composed (items : List Handle) (keys : List Key) (kept : List Handle) :
    Composed own (uniqueItems items keys kept : Act U (Option (List Handle))) := by
  induction items generalizing keys kept with
  | nil => exact .pure _
  | cons h hs ih =>
    refine .bind (.reads (keyOf_reads h)) fun key => ?_
    cases key with
    | none =>
      refine .bind (holding_composed _ ?_) fun _ => giveUp_composed _ none
      exact .bind (.reads (typeNameOf_reads h)) fun _ => raise_composed _ _
    | some k =>
      change Composed own (if keys.contains k then _ else _)
      split
      · exact .bind (holding_composed _ (.release h)) fun _ => ih keys kept
      · exact ih (keys ++ [k]) (kept ++ [h])

theorem newSet_composed (items : List Handle) :
    Composed own (newSet items : Act U (Option Handle)) := by
  refine .bind (uniqueItems_composed items [] []) fun kept => ?_
  cases kept with
  | none => exact .pure none
  | some kept => exact .map (.alloc rfl) _

theorem newTuple_composed (items : List Handle) : Composed own (newTuple items : Act U Handle) :=
  .alloc rfl

theorem appendItem_composed (list item : Handle) :
    Composed own (appendItem list item : Act U Bool) := by
  have hrefuse : Composed own (do release item; pure false : Act U Bool) :=
    .bind (.release item) fun _ => .pure false
  refine .revised fun w => ?_
  unfold appendItem
  simp only [bind_run, Act.heap]
  cases found : w.heap.payload? list with
  | none => exact ⟨_, hrefuse, .inl fun _ => rfl⟩
  | some p =>
    cases p with
    | list items =>
      exact ⟨pure true, .pure true, .inr ⟨list, _, .list (items ++ [item]), found,
        .append items item, fun _ => rfl⟩⟩
    | _ => exact ⟨_, hrefuse, .inl fun _ => rfl⟩

theorem tupleItems_composed (h : Handle) :
    Composed own (tupleItems h : Act U (Option (List Handle))) := by
  refine .bind (.heap _) fun p => ?_
  split
  · exact .map (acquireAll_composed _) _
  · exact .pure none

theorem listItems_composed (h : Handle) :
    Composed own (listItems h : Act U (Option (List Handle))) := by
  refine .bind (.heap _) fun p => ?_
  split
  · exact .map (acquireAll_composed _) _
  · exact .pure none

theorem convertFrom_composed (units : α → List Handle) {convert : α → Act U (Option Handle)}
    (hconvert : ∀ x, Composed own (convert x)) (beyond : List Handle) (items : List α)
    (index : Nat) (converted : Array Handle) :
    Composed own (convertFrom units convert beyond items index converted) := by
  induction items generalizing index converted with
  | nil => exact .bind (holding_composed _ (releaseAll_composed beyond)) fun _ => .pure _
  | cons x xs ih =>
    refine .bind (.onFault (hconvert x) (releaseAll_composed _)) fun out => .bind .isSet fun _ => ?_
    split
    · exact .bind (.onFault (releaseAll_composed _) (releaseAll_composed _)) fun _ => ih _ _
    · refine .bind (holding_composed _ (releaseAll_composed _)) fun _ => ?_
      exact .bind clear_composed fun _ => .bind (.emit _ rfl) fun _ => giveUp_composed _ _

theorem convertAll_composed {t : NativeType} (units : t.Value → List Handle)
    {convert : t.Value → Act U (Option Handle)} (hconvert : ∀ x, Composed own (convert x))
    (source : Source t) : Composed own (convertAll units convert source) := by
  refine .bind .isSet fun pending => ?_
  split
  · exact giveUp_composed _ _
  · exact .bind (holding_composed _ (reserve_composed _ _)) fun _ =>
      convertFrom_composed units hconvert _ _ 0 #[]

theorem toPeer_composed (t : NativeType) (v : t.Value) :
    Composed own (toPeer t v : Act U (Option Handle)) := by
  induction t with
  | i64 | i32 | f64 | bool | text | unit => exact .map (.alloc rfl) _
  | usize =>
    unfold toPeer
    split
    · exact .map (.alloc rfl) _
    · exact refuse_composed _ _ none
  | object | view | callable => exact .map (.acquire v) _
  | option t ih =>
    cases v with
    | none => exact .map (.alloc rfl) _
    | some v => exact ih v
  | pair a b iha ihb =>
    refine .bind (iha v.1) fun h => ?_
    cases h with
    | none => exact .pure none
    | some h =>
      refine .bind (holding_composed _ (ihb v.2)) fun k => ?_
      cases k with
      | none => exact .bind (.release h) fun _ => .pure none
      | some k => exact .map (newTuple_composed _) _
  | triple a b c iha ihb ihc =>
    refine .bind (iha v.1) fun h => ?_
    cases h with
    | none => exact .pure none
    | some h =>
      refine .bind (holding_composed _ (ihb v.2.1)) fun k => ?_
      cases k with
      | none => exact .bind (.release h) fun _ => .pure none
      | some k =>
        refine .bind (holding_composed _ (ihc v.2.2)) fun l => ?_
        cases l with
        | none => exact giveUp_composed _ none
        | some l => exact .map (newTuple_composed _) _
  | vec t ih =>
    refine .bind (convertAll_composed _ ih _) fun r => ?_
    cases r with
    | ok items => exact .map (.alloc rfl) _
    | error f => exact .bind (reflect_composed f) fun _ => .pure none

theorem convertOut_composed (code : Option CodeId) (t : NativeType) (v : t.Value) :
    Composed own (convertOut code t v : Act U (Option Handle)) := by
  cases code with
  | none => exact toPeer_composed t v
  | some code => exact .toPeer code t v

theorem step_composed (a : Adapter) :
    Composed own (a.step : Act U (Adapter × Option Handle)) := by
  refine .bind .isSet fun pending => ?_
  split
  · exact .pure _
  · split
    · exact .bind (holding_composed _ (releaseAll_composed _)) fun _ =>
        .bind (.emit _ rfl) fun _ => .pure _
    · refine .bind (holding_composed _ (convertOut_composed _ _ _)) fun out =>
        .bind .isSet fun pending => ?_
      split
      · exact .bind (holding_composed _ (releaseAll_composed _)) fun _ => .pure _
      · refine .bind (holding_composed _ (.bind (releaseAll_composed _) fun _ => ?_)) fun _ =>
          .pure _
        exact .bind clear_composed fun _ => .bind (.emit _ rfl) fun _ => raise_composed _ _

/-- At the end of its range an adapter answers none and stays there. -/
theorem step_lasts (a : Adapter) : (a.step : Act U (Adapter × Option Handle)).Answers fun r =>
    (NativeState.adapter a).Lasts (.adapter r.1) := by
  by_cases hend : a.peeked = some none
  · have hpeek : a.peek = (none, a, []) := by simp [Adapter.peek, hend]
    unfold Adapter.step
    refine .bind fun pending => ?_
    split
    · exact .pure (.refl _)
    · rw [hpeek]
      exact .bind fun _ => .bind fun _ => .pure (.refl _)
  · intro env w r w' _ b hb
    cases hb
    exact fun h => absurd h hend

theorem newAdapter_composed {t : NativeType} (source : Source t) (convert : Option CodeId) :
    Composed own (newAdapter source convert : Act U Handle) := by
  have hnew : newAdapter source convert =
      (Act.emit (.typeDescribed Descriptor.adapter.name StateKind.adapter.path) >>= fun _ =>
        instantiate .adapter (.adapter (.start source convert)) : Act U Handle) := rfl
  rw [hnew]
  exact .bind (.emit _ rfl) fun _ => .instantiate _ rfl

theorem newCollection_composed {t : NativeType} (source : Source t) (convert : Option CodeId) :
    Composed own (newCollection source convert : Act U Handle) := by
  have hnew : newCollection source convert =
      (Act.emit (.typeDescribed Descriptor.collection.name StateKind.collection.path) >>= fun _ =>
        instantiate .collection (.collection ⟨t, convert, source⟩) : Act U Handle) := rfl
  rw [hnew]
  exact .bind (.emit _ rfl) fun _ => .instantiate _ rfl

theorem copyAll_composed (units : β → List Handle) {copy : β → Act U Unit}
    (hcopy : ∀ v, Composed own (copy v)) (made : List Handle) (vs : List β) :
    Composed own (copyAll units copy made vs) := by
  induction vs generalizing made with
  | nil => exact .pure ()
  | cons v vs ih => exact .bind (holding_composed made (hcopy v)) fun _ => ih (made ++ units v)

theorem copyValue_composed (t : NativeType) (v : t.Value) :
    Composed own (copyValue t v : Act U Unit) := by
  induction t with
  | i64 | i32 | usize | f64 | bool | text | unit => exact .pure ()
  | object | view | callable => exact .bind (.acquire v) fun _ => .pure ()
  | option t ih =>
    cases v with
    | none => exact .pure ()
    | some v => exact ih v
  | pair a b iha ihb => exact .bind (iha v.1) fun _ => holding_composed _ (ihb v.2)
  | triple a b c iha ihb ihc =>
    exact .bind (iha v.1) fun _ => .bind (holding_composed _ (ihb v.2.1)) fun _ =>
      holding_composed _ (ihc v.2.2)
  | vec t ih => exact copyAll_composed t.units ih [] v

theorem copyCollection_composed (c : Collection) :
    Composed own (copyCollection c : Act U Collection) :=
  .bind (copyAll_composed c.elem.units (copyValue_composed c.elem) [] c.source.stored) fun _ =>
    .pure c

theorem runIterSlot_composed (slot : IterSlot) (obj : Handle) :
    Composed own (runIterSlot slot obj : Act U (Option Handle)) := by
  cases slot with
  | self => exact .map (.acquire obj) _
  | user code => exact .slot code obj
  | fresh =>
    refine .bind (.withState obj .collection _ (fun c => ?_) fun c => ?_) fun copied => ?_
    · exact .bind (holding_composed _ (copyCollection_composed c)) fun _ => .pure _
    · exact .bind fun _ => .pure (.refl _)
    · cases copied with
      | none => exact .pure none
      | some c => exact .map (newAdapter_composed _ _) _

theorem runNextSlot_composed (slot : NextSlot) (obj : Handle) :
    Composed own (runNextSlot slot obj : Act U (Option Handle)) := by
  cases slot with
  | step =>
    exact .bind (.withState obj .adapter Option.toList step_composed step_lasts) fun _ => .pure _
  | user code => exact .slot code obj

theorem runHintSlot_composed (slot : HintSlot) (obj : Handle) :
    Composed own (runHintSlot slot obj : Act U (Option Nat)) := by
  cases slot with
  | remaining =>
    have hhint : ∀ a : Adapter, Composed own (pure (a, a.hint) : Act U (Adapter × Nat)) :=
      fun a => .pure (a, a.hint)
    exact .withState obj .adapter (fun _ => []) hhint fun a => .pure (.refl _)
  | user code => exact .measure code obj

theorem getIter_composed (h : Handle) : Composed own (getIter h : Act U (Option Handle)) := by
  have hbuiltin : Composed own
      (do some <$> alloc (.iterator (← acquire h) 0) : Act U (Option Handle)) :=
    .bind (.acquire h) fun _ => .map (.alloc rfl) _
  refine .bind (.heap _) fun p => ?_
  split
  · exact refuse_composed _ _ none
  · exact hbuiltin
  · exact hbuiltin
  · exact hbuiltin
  · exact hbuiltin
  · exact .map (.acquire h) _
  · split
    · exact runIterSlot_composed _ h
    · exact refuse_composed _ _ none

/-- What a slot answers, an end that it raised taken for a plain end. -/
theorem nextBySlot_composed (slot : NextSlot) (it : Handle) :
    Composed own (do
      let found ← runNextSlot slot it
      if found.isNone then
        if ← Indicator.holds .stopIteration then Indicator.clear
      pure found : Act U (Option Handle)) := by
  refine .bind (runNextSlot_composed slot it) fun found => ?_
  split
  · refine .bind (.reads (holds_reads _)) fun stopped => ?_
    split
    · exact .bind clear_composed fun _ => .pure _
    · exact .pure _
  · exact .pure _

theorem iterNext_composed (it : Handle) : Composed own (iterNext it : Act U (Option Handle)) := by
  have hrefuse : ∀ kind message, Composed own
      (do raise kind message; pure none : Act U (Option Handle)) :=
    fun kind message => refuse_composed kind message none
  refine .revised fun w => ?_
  unfold iterNext
  simp only [bind_run, Act.heap]
  cases found : w.heap.payload? it with
  | none => exact ⟨_, hrefuse _ _, .inl fun _ => rfl⟩
  | some p =>
    cases p with
    | iterator seq position =>
      refine ⟨_, .nextItem it, .inl fun env => ?_⟩
      simp only [nextItem, bind_run, Act.heap, found]
    | native d s =>
      obtain ⟨_, _, _, _, next, _⟩ := d
      cases next with
      | none => exact ⟨_, hrefuse _ _, .inl fun _ => rfl⟩
      | some slot => exact ⟨_, nextBySlot_composed slot it, .inl fun _ => rfl⟩
    | _ => exact ⟨_, hrefuse _ _, .inl fun _ => rfl⟩

theorem isIterable_composed (h : Handle) : Composed own (isIterable h : Act U Bool) :=
  .bind (.swap none) fun _ => .bind (getIter_composed h) fun it =>
    .bind (releaseAll_composed it.toList) fun _ => .bind clear_composed fun _ =>
      .bind (putBack_composed _) fun _ => .pure _

theorem lengthHint_composed (h : Handle) : Composed own (lengthHint h : Act U (Option Nat)) := by
  refine .bind (.heap _) fun p => ?_
  split
  · split
    · exact .bind (.swap none) fun _ => .bind (runHintSlot_composed _ h) fun _ =>
        .bind clear_composed fun _ => .bind (putBack_composed _) fun _ => .pure _
    · exact .pure none
  · exact .pure _
  · exact .pure none

theorem newArguments_composed (n : Nat) : Composed own (newArguments n : Act U Handle) :=
  .alloc rfl

theorem setArgument_composed (container : Handle) (index : Nat) (value : Handle) :
    Composed own (setArgument container index value : Act U Unit) := by
  have hrefuse : Composed own
      (do release value; Act.fault (.noArgumentSlot container index) : Act U Unit) :=
    .bind (.release value) fun _ => .fault _
  refine .revised fun w => ?_
  unfold setArgument
  simp only [bind_run, Act.heap]
  cases found : w.heap.payload? container with
  | none => exact ⟨_, hrefuse, .inl fun _ => rfl⟩
  | some p =>
    cases p with
    | tuple slots =>
      dsimp only
      cases hslot : slots[index]? with
      | none => exact ⟨_, hrefuse, .inl fun _ => rfl⟩
      | some previous =>
        exact ⟨_, releaseAll_composed previous.toList, .inr ⟨container, _, _, found,
          .fill slots index value, fun _ => rfl⟩⟩
    | _ => exact ⟨_, hrefuse, .inl fun _ => rfl⟩

theorem invoke_composed (callable arguments : Handle) :
    Composed own (invoke callable arguments : Act U (Option Handle)) := by
  refine .bind (.heap _) fun p => ?_
  split
  · exact refuse_composed _ _ none
  · refine .bind (.heap _) fun p => ?_
    split
    · split
      · exact refuse_composed _ _ none
      · refine .bind (.emit _ rfl) fun _ => .bind (.call _ _) fun result => .bind .isSet fun _ => ?_
        split
        · exact .pure _
        · exact .bind (.emit _ rfl) fun _ => .pure none
        · exact .bind (raise_composed _ _) fun _ => .bind (.emit _ rfl) fun _ => .pure none
        · refine .bind (.release _) fun _ => .bind (.swap none) fun e => ?_
          exact .bind (raise_composed _ _) fun _ => .bind (.emit _ rfl) fun _ => .pure none
    · exact refuse_composed _ _ none
  · exact refuse_composed _ _ none

structure Intake.Composed (own : (α : Type) → Act U α → Prop) (p : Intake U α) : Prop where
  convert : ∀ h, Act.Composed own (p.convert h)
  discard : ∀ v, Act.Composed own (p.discard v)

theorem Intake.composed_of_convert {convert : Handle → Act U (Option α)}
    {units : α → List Handle} (width : Nat) (hconvert : ∀ h, Act.Composed own (convert h)) :
    Intake.Composed own ⟨convert, units, none, width⟩ :=
  ⟨hconvert, fun v => releaseAll_composed (units v)⟩

section

variable {p : Intake U α} (hp : p.Composed own)

include hp

namespace Cursor

theorem fetch_composed (c : Cursor α) : Act.Composed own (fetch p c) := by
  unfold fetch
  split
  · exact .pure _
  refine .bind .isSet fun pending => ?_
  split
  · exact .pure _
  refine .bind (iterNext_composed _) fun found => ?_
  cases found with
  | none =>
    refine .bind .isSet fun pending => ?_
    split
    · exact .pure _
    · exact .bind (.emit _ rfl) fun _ => .pure _
  | some element =>
    refine .bind (holding_composed _ (hp.convert element)) fun out => .bind .isSet fun pending => ?_
    split
    · exact .pure _
    · refine .bind (holding_composed _ ?_) fun _ => .bind (.release element) fun _ =>
        .bind clear_composed fun _ => .bind (.emit _ rfl) fun _ => .pure _
      cases out with
      | none => exact .pure ()
      | some v => exact hp.discard v

theorem discardCurrent_composed (c : Cursor α) : Act.Composed own (discardCurrent p c) := by
  unfold discardCurrent
  cases c.current with
  | none => exact .bind (.pure ()) fun _ => .pure _
  | some e =>
    exact .bind (holding_composed _ (.release e.1)) fun _ => .bind (hp.discard e.2) fun _ => .pure _

theorem advance_composed (c : Cursor α) : Act.Composed own (advance p c) := by
  unfold advance
  cases c.pending with
  | some f => exact .pure _
  | none =>
    dsimp only
    split
    · exact .pure _
    · exact .bind (discardCurrent_composed hp c) fun _ => fetch_composed hp _

theorem next_composed (c : Cursor α) : Act.Composed own (next p c) := by
  unfold next
  cases c.pending with
  | some f => exact .pure _
  | none =>
    cases c.current with
    | none => exact .pure _
    | some e =>
      exact .bind (holding_composed _ (.release e.1)) fun _ =>
        .bind (holding_composed _ (fetch_composed hp _)) fun _ => .pure _

theorem drop_composed (c : Cursor α) : Act.Composed own (c.drop p) :=
  .bind (holding_composed _ (discardCurrent_composed hp c)) fun _ => .release _

end Cursor

namespace View

omit hp in
theorem make_composed (h : Handle) :
    Act.Composed own (make h : Act U (Except Failure Handle)) := by
  refine .bind (isIterable_composed h) fun b => ?_
  split
  · exact .map (.acquire h) _
  · exact .bind (.reads (typeNameOf_reads h)) fun _ => .pure _

theorem begin_composed (iterable : Handle) : Act.Composed own (begin p iterable) := by
  refine .bind (getIter_composed iterable) fun it => ?_
  cases it with
  | none =>
    refine .bind .isSet fun pending => ?_
    split
    · exact .pure _
    · exact .pure _
  | some it =>
    refine .bind (.reads (typeNameOf_reads iterable)) fun _ => .bind (.emit _ rfl) fun _ =>
      .bind (holding_composed _ (Cursor.fetch_composed hp _)) fun r => ?_
    obtain ⟨c, failure⟩ := r
    cases failure with
    | none => exact .pure _
    | some f => exact .bind (Cursor.drop_composed hp c) fun _ => .pure _

theorem drawFrom_composed (c : Cursor α) (out : Array α) :
    Act.Composed own (drawFrom p c out) := by
  refine .loop (fun s => ?_) (c, out)
  obtain ⟨c, out⟩ := s
  refine .bind (.onFault (Cursor.next_composed hp c) (releaseAll_composed _)) fun r => ?_
  obtain ⟨c', o⟩ := r
  cases o with
  | none => exact .bind (holding_composed _ (Cursor.drop_composed hp c')) fun _ => .pure _
  | some r =>
    cases r with
    | ok v => exact .pure _
    | error f =>
      exact .bind (holding_composed _ (Cursor.drop_composed hp c')) fun _ => giveUp_composed _ _

theorem collect_composed (iterable : Handle) : Act.Composed own (collect p iterable) := by
  refine .bind (begin_composed hp iterable) fun r => ?_
  cases r with
  | error f => exact .pure _
  | ok c => exact drawFrom_composed hp c #[]

omit hp in
theorem reserveHinted_composed (iterable : Handle) :
    Act.Composed own (reserveHinted p iterable) := by
  refine .bind (lengthHint_composed _) fun count => ?_
  cases count with
  | some n => exact reserve_composed _ _
  | none => exact .pure _

theorem collectSized_composed (iterable : Handle) :
    Act.Composed own (collectSized p iterable) := by
  refine .bind (.reads .settings) fun settings => ?_
  split
  · exact .bind (reserveHinted_composed _) fun _ => collect_composed hp iterable
  · exact collect_composed hp iterable

theorem tryForEach_composed {visit : σ → α → Act U σ}
    (hvisit : ∀ s v, Act.Composed own (visit s v)) (iterable : Handle) (s : σ) :
    Act.Composed own (tryForEach p visit iterable s) := by
  refine .bind (begin_composed hp iterable) fun r => ?_
  cases r with
  | error f => exact .pure _
  | ok c =>
    refine .loop (fun s => ?_) (c, s)
    obtain ⟨c, s⟩ := s
    dsimp only
    split
    · exact .bind (Cursor.drop_composed hp c) fun _ => .pure _
    · rename_i v _
      refine .bind (.onFault (hvisit s v) (Cursor.drop_composed hp c)) fun s =>
        .bind (holding_composed _ (Cursor.advance_composed hp c)) fun r => ?_
      obtain ⟨c', failure⟩ := r
      cases failure with
      | none => exact .pure _
      | some f => exact .bind (Cursor.drop_composed hp c') fun _ => .pure _

end View

theorem collectObject_composed (h : Handle) : Act.Composed own (collectObject p h) := by
  refine .bind (View.make_composed h) fun r => ?_
  cases r with
  | error f => exact .pure _
  | ok iterable =>
    exact .bind (holding_composed _ (View.collectSized_composed hp iterable)) fun _ =>
      .bind (.release iterable) fun _ => .pure _

end

theorem expectTuple_composed (h : Handle) (arity : Nat) :
    Composed own (expectTuple h arity : Act U (Option (List Handle))) := by
  refine .bind (tupleItems_composed h) fun items => ?_
  cases items with
  | none => exact .bind (.reads (typeNameOf_reads h)) fun _ => refuse_composed _ _ none
  | some items =>
    dsimp only
    split
    · exact .pure _
    · exact .bind (holding_composed _ (raise_composed _ _)) fun _ => giveUp_composed _ none

theorem reflected_composed (r : Except Failure α) :
    Composed own (reflected r : Act U (Option α)) := by
  cases r with
  | ok a => exact .pure _
  | error f => exact .bind (reflect_composed f) fun _ => .pure none

theorem makeCallable_composed (h : Handle) :
    Composed own (makeCallable h : Act U (Except Failure Handle)) := by
  refine .bind (.reads (isCallable_reads h)) fun b => ?_
  split
  · exact .map (.acquire h) _
  · exact .bind (.reads (typeNameOf_reads h)) fun _ => .pure _

theorem intFromPeer_composed (h : Handle) :
    Composed own (intFromPeer h : Act U (Option Int64)) := by
  refine .bind (.reads (asInt_reads h)) fun v => ?_
  cases v with
  | some v => exact .pure _
  | none => exact .bind (.reads (typeNameOf_reads h)) fun _ => refuse_composed _ _ none

theorem fromPeer_composed (t : NativeType) (h : Handle) :
    Composed own (fromPeer t h : Act U (Option t.Value)) := by
  induction t generalizing h with
  | i64 => exact intFromPeer_composed h
  | i32 | usize =>
    refine .bind (intFromPeer_composed h) fun v => ?_
    cases v with
    | none => exact .pure none
    | some v =>
      dsimp only
      split
      · exact .pure _
      · exact refuse_composed _ _ none
  | f64 =>
    refine .bind (.reads (asFloat_reads h)) fun x => ?_
    cases x with
    | some x => exact .pure _
    | none => exact .bind (.reads (typeNameOf_reads h)) fun _ => refuse_composed _ _ none
  | bool => exact .map (.reads (isTruthy_reads h)) _
  | text =>
    refine .bind (.reads (asText_reads h)) fun s => ?_
    cases s with
    | some s => exact .pure _
    | none => exact .bind (.reads (typeNameOf_reads h)) fun _ => refuse_composed _ _ none
  | unit => exact .pure _
  | object => exact .map (.acquire h) _
  | option t ih =>
    refine .bind (.reads (isNoneObject_reads h)) fun b => ?_
    split
    · exact .pure _
    · refine .bind (ih h) fun v => ?_
      cases v with
      | some v => exact .pure _
      | none => exact .pure none
  | pair a b iha ihb =>
    refine .bind (expectTuple_composed h 2) fun items => ?_
    cases items with
    | none => exact .pure none
    | some items =>
      refine .bind (holding_composed _ (iha _)) fun x => ?_
      cases x with
      | none => exact giveUp_composed _ none
      | some x =>
        refine .bind (holding_composed _ (ihb _)) fun y => ?_
        cases y with
        | none => exact giveUp_composed _ none
        | some y => exact giveUp_composed _ _
  | triple a b c iha ihb ihc =>
    refine .bind (expectTuple_composed h 3) fun items => ?_
    cases items with
    | none => exact .pure none
    | some items =>
      refine .bind (holding_composed _ (iha _)) fun x => ?_
      cases x with
      | none => exact giveUp_composed _ none
      | some x =>
        refine .bind (holding_composed _ (ihb _)) fun y => ?_
        cases y with
        | none => exact giveUp_composed _ none
        | some y =>
          refine .bind (holding_composed _ (ihc _)) fun z => ?_
          cases z with
          | none => exact giveUp_composed _ none
          | some z => exact giveUp_composed _ _
  | vec t ih =>
    exact .bind (collectObject_composed (Intake.composed_of_convert t.width ih) h) fun r =>
      reflected_composed r
  | view => exact .bind (View.make_composed h) fun r => reflected_composed r
  | callable => exact .bind (makeCallable_composed h) fun r => reflected_composed r

theorem builtinIntake_composed (t : NativeType) :
    (builtinIntake t : Intake U t.Value).Composed own :=
  Intake.composed_of_convert t.width (fromPeer_composed t)

def Returns.Composed (own : (α : Type) → Act U α → Prop) : Returns U α → Prop
  | .convert conversion _ => ∀ h, Act.Composed own (conversion h)
  | .discard _ => True

namespace Callable

theorem marshal_composed (container : Handle) {arguments : List (Act U (Option Handle))}
    (harguments : ∀ a ∈ arguments, Act.Composed own a) (index : Nat) :
    Act.Composed own (marshal container arguments index) := by
  induction arguments generalizing index with
  | nil => exact .pure none
  | cons argument rest ih =>
    refine .bind (harguments argument List.mem_cons_self) fun out => .bind .isSet fun pending => ?_
    split
    · exact .bind (setArgument_composed container index _) fun _ =>
        ih (fun a ha => harguments a (List.mem_cons_of_mem _ ha)) (index + 1)
    · exact giveUp_composed _ _

theorem finish_composed {returns : Returns U α} (hreturns : returns.Composed own)
    (result : Handle) : Act.Composed own (finish returns result) := by
  cases returns with
  | discard value => exact .bind (.release result) fun _ => .pure _
  | convert convert units =>
    refine .bind (holding_composed _ (hreturns result)) fun out =>
      .bind (holding_composed _ (.release result)) fun _ => .bind .isSet fun pending => ?_
    split
    · exact .pure _
    · exact .bind clear_composed fun _ => .bind (.emit _ rfl) fun _ => giveUp_composed _ _

theorem call_composed (target : Handle) {arguments : List (Act U (Option Handle))}
    (harguments : ∀ a ∈ arguments, Act.Composed own a) (units : List Handle)
    {returns : Returns U α} (hreturns : returns.Composed own) :
    Act.Composed own (call target arguments units returns) := by
  refine .bind .isSet fun pending => ?_
  split
  · exact giveUp_composed _ _
  refine .bind (newArguments_composed _) fun container =>
    .bind (holding_composed _ (marshal_composed container harguments 0)) fun stopped => ?_
  cases stopped with
  | some position =>
    exact .bind (holding_composed _ (.release container)) fun _ => .bind clear_composed fun _ =>
      .bind (.emit _ rfl) fun _ => giveUp_composed _ _
  | none =>
    refine .bind (holding_composed _ (releaseAll_composed units)) fun _ =>
      .bind (holding_composed _ (invoke_composed target container)) fun result =>
        .bind (holding_composed _ (.release container)) fun _ => ?_
    cases result with
    | none => exact .pure _
    | some h => exact finish_composed hreturns h

end Callable

theorem gather_composed (mode : OutputMode) (items : List Handle) :
    Composed own (gather mode items : Act U (Except Failure Handle)) := by
  cases mode with
  | tuple | list | onDemand => exact .map (.alloc rfl) _
  | set | frozenSet =>
    refine .bind (newSet_composed items) fun o => ?_
    cases o with
    | none => exact .pure _
    | some h => exact .pure _

theorem exportSource_composed {t : NativeType} (source : Source t) (convert : Option CodeId)
    (mode : OutputMode) :
    Composed own (exportSource source convert mode : Act U (Except Failure Handle)) := by
  cases mode with
  | onDemand => exact .map (newAdapter_composed source convert) _
  | list | tuple | set | frozenSet =>
    refine .bind (convertAll_composed t.units (convertOut_composed convert t) source) fun r => ?_
    cases r with
    | error f => exact .pure _
    | ok items => exact gather_composed _ items

theorem audit_composed : Composed own (audit : Act U Nat) := by
  refine .bind (.reads stats_reads) fun s => ?_
  split
  · exact .bind (.emit _ rfl) fun _ => .pure _
  · exact .bind (.emit _ rfl) fun _ => .pure _

theorem shutDown_composed : Composed own (shutDown : Act U Nat) :=
  .bind audit_composed fun _ => .bind (.emit _ rfl) fun _ => .pure _

end Causeway
