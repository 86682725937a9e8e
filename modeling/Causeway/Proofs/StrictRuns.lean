import Causeway.Proofs.BoundPasses
/-!
# Strict runs

The library never raises over its own errors. An operation that begins with the indicator clear, on
objects with no user code behind them, goes the same way whether raising over a pending error is a
fault or a warning, and whatever the client would have noted of such a warning. Peer functions take
part as long as they keep to this themselves.
-/
set_option autoImplicit false

namespace Causeway

open Act

variable {U α : Type}

/-- The sides may be of different strictness; what the client keeps is the same. -/
def strictBond (U : Type) : Bond U where
  settings s s' :=
    s.traceReferences = s'.traceReferences ∧ s.reserveFromHint = s'.reserveFromHint
  client := Eq
  calls := True
  wild := False
  tolerant := False
  traces h := h.1
  strictness := False.elim
  tolerant_of_wild := id

/-- Begun with the indicator clear the act does the same however strict the settings are. -/
def Act.Sober (env env' : Env U) (act : Act U α) : Prop :=
  (strictBond U).Agrees env env' True act fun _ => False

/-- Peer functions that never raise over a pending error: entered with the indicator clear, each of
them does the same however strict the settings are, if all that it enters in turn does. -/
def Sober (user : Env U → Hooks U) : Prop :=
  ∀ {env env' : Env U}, (strictBond U).Joins env env' →
    ∀ code hs, Act.Sober env env' fun env w => (user env).call code hs w

/-- The operations of the library with the builtin converters, for native types nested however
deep: single conversions, the making of views and callables, the steps of a pass and whole passes,
exports, the peer protocols, probes and calls. A visitor is the client's own code, and has to be
sober itself. -/
inductive Operation (env env' : Env U) : (α : Type) → Act U α → Prop where
  | fromPeer (t : NativeType) (h : Handle) : Operation env env' _ (fromPeer t h)
  | toPeer (t : NativeType) (v : t.Value) : Operation env env' _ (toPeer t v)
  | makeView (h : Handle) : Operation env env' _ (View.make h)
  | makeCallable (h : Handle) : Operation env env' _ (makeCallable h)
  | begin (t : NativeType) (h : Handle) : Operation env env' _ (View.begin (builtinIntake t) h)
  | next (t : NativeType) (c : Cursor t.Value) : Operation env env' _ (c.next (builtinIntake t))
  | advance (t : NativeType) (c : Cursor t.Value) :
    Operation env env' _ (c.advance (builtinIntake t))
  | drop (t : NativeType) (c : Cursor t.Value) : Operation env env' _ (c.drop (builtinIntake t))
  | collect (t : NativeType) (h : Handle) :
    Operation env env' _ (View.collect (builtinIntake t) h)
  | collectSized (t : NativeType) (h : Handle) :
    Operation env env' _ (View.collectSized (builtinIntake t) h)
  | tryForEach {σ : Type} (t : NativeType) {visit : σ → t.Value → Act U σ}
    (hvisit : ∀ s v, (visit s v).Sober env env') (h : Handle) (s : σ) :
    Operation env env' _ (View.tryForEach (builtinIntake t) visit h s)
  | exportSource {t : NativeType} (source : Source t) (mode : OutputMode) :
    Operation env env' _ (exportSource source none mode)
  | getIter (h : Handle) : Operation env env' _ (getIter h)
  | iterNext (it : Handle) : Operation env env' _ (iterNext it)
  | isIterable (h : Handle) : Operation env env' _ (isIterable h)
  | lengthHint (h : Handle) : Operation env env' _ (lengthHint h)
  | invoke (callable arguments : Handle) : Operation env env' _ (invoke callable arguments)
  | call (target : Handle) (arguments : List ((t : NativeType) × t.Value)) (t : NativeType) :
    Operation env env' _ (Callable.call target (arguments.map fun a => Causeway.toPeer a.1 a.2)
      (arguments.flatMap fun a => a.1.units a.2) (.convert (Causeway.fromPeer t) t.units))
  | send (target : Handle) (arguments : List ((t : NativeType) × t.Value)) :
    Operation env env' _ (Callable.call target (arguments.map fun a => Causeway.toPeer a.1 a.2)
      (arguments.flatMap fun a => a.1.units a.2) (.discard ()))

theorem Operation.sober {env env' : Env U} (hj : (strictBond U).Joins env env') {act : Act U α}
    (hop : Operation env env' α act) : act.Sober env env' := by
  have hsizes : (strictBond U).SizesAgree env env' False := Bond.sizes_of_settings hj fun h => h.2
  have hintake (t : NativeType) := Bond.builtinIntake_agrees hj t fun _ => hsizes
  have hfrom (t : NativeType) (h : Handle) : (Causeway.fromPeer t h).Sober env env' :=
    (Bond.fromPeer_agrees hj t (fun _ => hsizes) h trivial).agrees.anyhow
  have harguments (arguments : List ((t : NativeType) × t.Value)) :
      ∀ a ∈ arguments.map fun a => Causeway.toPeer (U := U) a.1 a.2, a.Sober env env' := by
    intro a ha
    obtain ⟨⟨t, v⟩, -, rfl⟩ := List.mem_map.1 ha
    exact (Bond.toPeer_agrees hj t v trivial).anyhow
  cases hop with
  | fromPeer t h => exact hfrom t h
  | toPeer t v => exact (Bond.toPeer_agrees hj t v trivial).anyhow
  | makeView h => exact (Bond.make_agrees hj h).anyhow
  | makeCallable h => exact (Bond.makeCallable_agrees hj h).anyhow
  | «begin» t h => exact (Bond.begin_agrees hj (hintake t) h trivial).agrees.anyhow
  | next t c => exact ((Bond.next_agrees hj (hintake t) c).agrees.under fun _ => trivial).anyhow
  | advance t c => exact (Bond.advance_agrees hj (hintake t) c).agrees.anyhow
  | drop t c => exact (Bond.drop_agrees hj (hintake t) c).anyhow
  | collect t h => exact (Bond.collect_agrees hj (hintake t) h trivial).agrees.anyhow
  | collectSized t h => exact (hsizes (hintake t) h).agrees.anyhow
  | tryForEach t hvisit h s => exact (Bond.tryForEach_agrees hj (hintake t) hvisit h s trivial).agrees
  | exportSource source mode => exact Bond.exportSource_agrees hj source (.inr rfl) mode
  | getIter h => exact (Bond.getIter_agrees hj h trivial).anyhow
  | iterNext it => exact (Bond.iterNext_agrees hj it trivial).anyhow
  | isIterable h => exact (Bond.isIterable_agrees hj h).anyhow
  | lengthHint h => exact (Bond.lengthHint_agrees hj h).anyhow
  | invoke callable arguments =>
    exact (Bond.invoke_agrees hj trivial callable arguments trivial).anyhow
  | call target arguments t =>
    exact Bond.call_agrees hj trivial target (harguments arguments) _ (hfrom t)
  | send target arguments =>
    exact Bond.call_agrees hj trivial target (harguments arguments) _ trivial

def World.strictly (w : World U) (strict : Bool) : World U :=
  { w with settings := { w.settings with strictIndicator := strict } }

section

variable {observe observe' : Log.Event → U → U} {user : Env U → Hooks U}

theorem sober_joins
    (hobserve : ∀ e u, (∀ r, e ≠ .overwritten r) → observe e u = observe' e u)
    (hsober : Sober user) (n : Nat) :
    (strictBond U).Joins (.tie observe user n) (.tie observe' user n) := by
  refine Bond.tie_joins ?_ (fun hj => ⟨fun _ code hs w w' hw clear => ?_, False.elim, False.elim,
    False.elim, False.elim⟩) n
  · rintro e u _ he rfl
    exact hobserve e u (he.resolve_left id)
  · exact hsober hj code hs w w' hw fun _ => clear

/-- With strict settings an operation ends as it does otherwise, and never because an error was
raised over another. The client that notes differently what is overwritten has nothing to note. -/
theorem strict_coincides
    (hobserve : ∀ e u, (∀ r, e ≠ .overwritten r) → observe e u = observe' e u)
    (hsober : Sober user) (n : Nat) {act : Act U α}
    (hop : Operation (.tie observe user n) (.tie observe' user n) α act) {w : World U}
    (plain : ∀ h p, w.heap.payload? h = some p → p.Plain) (clear : w.pending = none) :
    (act (.tie observe user n) (w.strictly true)).Coincides Eq
        (act (.tie observe' user n) (w.strictly false)) ∧
      ∀ e w', act (.tie observe user n) (w.strictly true) ≠ .fault (.raisedOverPending e) w' := by
  have hw : (strictBond U).Holds (w.strictly true) (w.strictly false) :=
    ⟨rfl, rfl, ⟨rfl, rfl⟩, rfl, fun h p hp => .inr (plain h p hp)⟩
  have hout := hop.sober (sober_joins hobserve hsober n) _ _ hw fun _ => .inr clear
  refine ⟨hout.coincides, fun e w' hfault => ?_⟩
  rw [hfault] at hout
  cases hlax : act (.tie observe' user n) (w.strictly false) with
  | done a w₁ => exact (hlax ▸ hout).elim
  | fault c w₁ => exact ((hlax ▸ hout).2.2.resolve_left id) e rfl
  | unfinished => exact (hlax ▸ hout).elim

end

/-- Counts the integers of its argument, and leaves what the library has to say of it when there are
none. -/
def countHooks (env : Env U) : Hooks U :=
  { Hooks.exhausted with
    call := fun _ arguments => (do
      match ← fromPeer (.vec .i64) (arguments.headD default) with
      | some vs => some <$> alloc (.int (Int64.ofNat (List.length vs)))
      | none => pure none) env }

theorem countHooks_sober : Sober (U := U) countHooks := by
  intro env env' hj code hs
  have hsizes : (strictBond U).SizesAgree env env' False := Bond.sizes_of_settings hj fun h => h.2
  refine .bind (Bond.fromPeer_agrees hj (.vec .i64) (fun _ => hsizes) _ trivial).agrees
    fun found => ?_
  cases found with
  | none => exact .answer nofun
  | some vs =>
    exact (Bond.made_agrees (p := .int (Int64.ofNat (List.length vs))) hj rfl
      rfl).anyhow

def countWorld : World (List Log.Event) where
  heap := (Heap.empty.insert (.function "count" 0)).2
  pending := none
  settings := {}
  client := []

theorem countWorld_plain (h : Handle) (p : Payload)
    (hp : countWorld.heap.payload? h = some p) : p.Plain := by
  have hfits : (strictBond Unit).FitsHeap countWorld.heap :=
    Bond.FitsHeap.empty.insert (.builtin rfl)
  exact (hfits h p hp).resolve_left id

def countArguments : List ((t : NativeType) × t.Value) := [⟨.i64, (3 : Int64)⟩]

def countCall : Act U (Except Failure Int64) :=
  Callable.call ⟨0, 0⟩ (countArguments.map fun a => toPeer a.1 a.2)
    (countArguments.flatMap fun a => a.1.units a.2)
    (.convert (fromPeer .i64) (NativeType.units .i64))

def chronicle (e : Log.Event) (log : List Log.Event) : List Log.Event := e :: log

def unwarned : Log.Event → List Log.Event → List Log.Event
  | .overwritten _, log => log
  | e, log => e :: log

theorem chronicle_eq_unwarned (e : Log.Event) (log : List Log.Event)
    (he : ∀ r, e ≠ .overwritten r) : chronicle e log = unwarned e log := by
  unfold unwarned
  split
  · exact absurd rfl (he _)
  · rfl

theorem countCall_operation (env env' : Env (List Log.Event)) :
    Operation env env' _ countCall := .call ⟨0, 0⟩ countArguments .i64

/-- What the library raised in the function is what the call fails with. -/
theorem countCall_run : ((do let _ ← countCall; Indicator.get : Act (List Log.Event) _)
    (.tie chronicle countHooks 8) (countWorld.strictly true)).answer? =
      some (some ⟨.typeError, "expected an iterable, not int"⟩) := by
  decide +kernel

theorem strict_coincides_count :
    (countCall (.tie chronicle countHooks 8) (countWorld.strictly true)).Coincides Eq
        (countCall (.tie unwarned countHooks 8) (countWorld.strictly false)) ∧
      (∀ e w', countCall (.tie chronicle countHooks 8) (countWorld.strictly true) ≠
        .fault (.raisedOverPending e) w') ∧
      ((do let _ ← countCall; Indicator.get : Act (List Log.Event) _)
        (.tie chronicle countHooks 8) (countWorld.strictly true)).answer? =
          some (some ⟨.typeError, "expected an iterable, not int"⟩) := by
  have h := strict_coincides chronicle_eq_unwarned countHooks_sober 8 (countCall_operation _ _)
    countWorld_plain rfl
  exact ⟨h.1, h.2, countCall_run⟩

end Causeway
