import Causeway.Proofs.EnteredCalls
/-!
# Chains of native frames

Peer functions that are native code around a call of the next one, to any depth. Between two of them
an error crosses a call, an invocation and a boundary, each of which may keep, clear, replace or make
up what is pending. It arrives as it was raised: the error of the last function, or the failure that
a frame describes, in the words of that frame.
-/
set_option autoImplicit false

namespace Causeway

open Act

variable {U : Type} {O : Ownership U} {astray : Prop} {env : Env U} {w w' : World U}

/-- Native code around one call: what it does before, what it owns during the call, and what it makes
of the result. -/
structure Frame (U : Type) where
  Local : Type
  Result : Type
  prepare : List Handle → Act U (Except Failure Local)
  locals : Local → List Handle
  target : Local → Handle
  arguments : Local → List (Act U (Option Handle))
  units : Local → List Handle
  returns : Local → Returns U Result
  complete : Local → Result → Act U (Except Failure Handle)

namespace Frame

def call (f : Frame U) (l : f.Local) : Act U (Except Failure f.Result) :=
  Callable.call (f.target l) (f.arguments l) (f.units l) (f.returns l)

/-- The call, and what comes behind it. A failure is passed on as it is. -/
def attempt (f : Frame U) (l : f.Local) : Act U (Except Failure Handle) := do
  match ← holding (f.locals l) (f.call l) with
  | .error d =>
    releaseAll (f.locals l)
    pure (.error d)
  | .ok v => f.complete l v

def body (f : Frame U) (hs : List Handle) : Act U (Except Failure Handle) := do
  match ← f.prepare hs with
  | .error d => pure (.error d)
  | .ok l => f.attempt l

def function (f : Frame U) (hs : List Handle) : Act U (Option Handle) := do
  guarded (← f.body hs)

/-- The parts of a frame keep the discipline, leave the indicator clear where they succeed, and
describe their failures. The callable is the frame's own. -/
structure Keeps (O : Ownership U) (env : Env U) (f : Frame U) : Prop where
  prepare : ∀ hs, Conserves O .strict 0 (f.prepare hs) (unitsOk fun l => ↑(f.units l ++ f.locals l))
  prepared : ∀ hs w l w', w.pending = none → f.prepare hs env w = .done (.ok l) w' →
    w'.pending = none ∧ f.target l ∈ f.locals l
  unprepared : ∀ hs w d w', f.prepare hs env w = .done (.error d) w' → d.kind.exception? ≠ none
  arguments : ∀ l, ∀ a ∈ f.arguments l, Conserves O .strict 0 a fun o => ↑o.toList
  returns : ∀ l, (f.returns l).Lawful O
  completed : ∀ l v w h w', w.pending = none → f.complete l v env w = .done (.ok h) w' →
    w'.pending = none
  incomplete : ∀ l v w d w', f.complete l v env w = .done (.error d) w' → d.kind.exception? ≠ none

variable {f : Frame U} {hs : List Handle} {l : f.Local}

theorem guarded_raised {e : Raised} {d : Failure} (hd : d.kind.exception? = none)
    (hpending : w.pending = some e) : guarded (.error d) env w = .done none w := by
  simp [guarded, Failure.reflect, hd, bind_run, pure_run, Indicator.isSet, hpending]

theorem guarded_described {d : Failure} {kind : ExceptionKind} (hd : d.kind.exception? = some kind)
    (env : Env U) (w : World U) :
    ∃ w', guarded (.error d) env w = .done none w' ∧ w'.pending = some ⟨kind, d.message⟩ := by
  obtain ⟨w', hreflect, hpending, -⟩ := reflect_run hd env w
  exact ⟨w', by simp only [guarded, bind_run, hreflect, pure_run], hpending⟩

theorem Keeps.exact (hf : f.Keeps O env) (henv : env.Lawful O) (hw : Ready O .strict 0 w)
    (clear : w.pending = none) (prepared : f.prepare hs env w = .done (.ok l) w') :
    ∃ F, Exact O (↑(f.units l) + (↑(f.locals l) + F)) w' ∧ w'.pending = none ∧
      f.target l ∈ (↑(f.locals l) : Multiset Handle) + F := by
  obtain ⟨F, hx⟩ := hw rfl
  rw [zero_add] at hx
  have hprepared := hf.prepare hs env henv w hw
  rw [prepared] at hprepared
  obtain ⟨hclear, htarget⟩ := hf.prepared hs w l w' clear prepared
  refine ⟨F, ?_, hclear, by simp [htarget]⟩
  rw [← add_assoc, Multiset.coe_add]
  exact hprepared.1.exact_join hx

/-- The peer function that a frame calls raises, and so does the frame. -/
theorem function_raises (hs' : env.Sheds O astray) (hf : f.Keeps O env)
    (hw : Ready O .strict 0 w) (clear : w.pending = none) {name : String} {code : CodeId}
    {ks : List Handle} {e : Raised} {w₁ w₂ : World U}
    (prepared : f.prepare hs env w = .done (.ok l) w₁)
    (hfunction : w₁.heap.payload? (f.target l) = some (.function name code))
    (entered : Callable.Enters env (f.target l) (f.arguments l) (f.units l) code w₁ ks w₂)
    (hraises : (env.hooks.call code ks w₂).Settles astray (Raises e)) :
    (f.function hs env w).Settles astray (Raises e) := by
  obtain ⟨F, hx, hclear, htarget⟩ := hf.exact hs'.lawful hw clear prepared
  have hcall : (f.call l env w₁).Settles astray _ :=
    entered.call_raises hs' (hf.arguments l) hx htarget hfunction hclear hraises
  have hbody : (f.body hs env w).Settles astray fun r w' =>
      r = .error .alreadyRaised ∧ w'.pending = some e := by
    unfold body
    rw [bind_run, prepared]
    refine (holding_settles (f.locals l) hcall).bind fun r w₃ _ h => ?_
    obtain ⟨-, rfl, hpending, hx₃⟩ := h
    refine (hs'.releaseAll_settles (f.locals l) (hx₃.ready.of_frame F)).bind fun _ w₄ _ h => ?_
    exact ⟨rfl, h.1.trans hpending⟩
  refine hbody.bind fun r w₃ _ h => ?_
  obtain ⟨rfl, hpending⟩ := h
  rw [guarded_raised rfl hpending]
  exact ⟨rfl, hpending⟩

/-- The call that a frame makes takes one of the exits of a call. -/
theorem Keeps.call_exit (hf : f.Keeps O env) (henv : env.Lawful O) (hcalm : env.Calm)
    {F : Multiset Handle} (hx : Exact O (↑(f.units l) + (↑(f.locals l) + F)) w)
    (clear : w.pending = none) (htarget : f.target l ∈ (↑(f.locals l) : Multiset Handle) + F)
    {name : String} {code : CodeId}
    (hfunction : w.heap.payload? (f.target l) = some (.function name code))
    {r : Except Failure f.Result} (hrun : f.call l env w = .done r w') :
    Callable.Exit env (f.target l) (f.arguments l) (f.units l) (f.returns l) r w w' := by
  have harguments : ∀ a ∈ f.arguments l, a.Tame O True env (f.units l) fun o => ↑o.toList :=
    fun a ha => ⟨hf.arguments l a ha, fun _ _ _ _ => .any _⟩
  have hreturns : Callable.Returns.Tame O True env (f.returns l) := by
    have hlawful := hf.returns l
    revert hlawful
    cases f.returns l with
    | discard value => exact fun _ => trivial
    | convert conversion owned =>
      exact fun hlawful h => ⟨hlawful .strict h, fun _ _ _ _ => .any _⟩
  have hcall := Callable.call_settles (Env.tame_of_calm henv hcalm) harguments hreturns hx htarget
    hfunction clear
  rw [show Callable.call _ _ _ _ env w = _ from hrun] at hcall
  exact hcall

/-- The function that a frame calls was entered and gives no object or leaves an error, and what it
leaves is what the frame leaves. -/
def Passes (f : Frame U) (env : Env U) (l : f.Local) (code : CodeId) (w : World U)
    (pending : Option Raised) : Prop :=
  ∃ ks w₁ out w₂, Callable.Enters env (f.target l) (f.arguments l) (f.units l) code w ks w₁ ∧
    env.hooks.call code ks w₁ = .done out w₂ ∧ (out = none ∨ w₂.pending ≠ none) ∧
    (out = none → w₂.pending ≠ none → pending = w₂.pending)

theorem attempt_cases (henv : env.Lawful O) (hcalm : env.Calm) (hf : f.Keeps O env)
    {F : Multiset Handle} (hx : Exact O (↑(f.units l) + (↑(f.locals l) + F)) w)
    (clear : w.pending = none) (htarget : f.target l ∈ (↑(f.locals l) : Multiset Handle) + F)
    {name : String} {code : CodeId}
    (hfunction : w.heap.payload? (f.target l) = some (.function name code))
    {r : Except Failure Handle} (hrun : f.attempt l env w = .done r w') :
    (∃ h, r = .ok h ∧ w'.pending = none) ∨ (∃ d, r = .error d ∧ d.kind.exception? ≠ none) ∨
      (r = .error .alreadyRaised ∧ f.Passes env l code w w'.pending) := by
  obtain ⟨called, w₁, hheld, hrest⟩ := bind_eq_done.1 hrun
  have hexit := hf.call_exit henv hcalm hx clear htarget hfunction (holding_eq_done hheld)
  cases called with
  | ok v =>
    cases r with
    | ok h => exact .inl ⟨h, rfl, hf.completed l v w₁ h w' hexit.ok_clear hrest⟩
    | error d => exact .inr (.inl ⟨d, rfl, hf.incomplete l v w₁ d w' hrest⟩)
  | error d =>
    obtain ⟨_, w₂, hlocals, ⟨⟩⟩ := bind_eq_done.1 hrest
    obtain hdescribed | ⟨rfl, hran⟩ := hexit.error_cases
    · exact .inr (.inl ⟨d, rfl, hdescribed⟩)
    · obtain ⟨ks, w₃, out, w₄, hentered, hran, hfails, hkept⟩ :=
        hran.enters henv hcalm (hf.arguments l) hx htarget hfunction clear
      have hcalm' := releaseAll_calm hcalm (f.locals l) (w := w₁)
      rw [hlocals] at hcalm'
      exact .inr (.inr ⟨rfl, ks, w₃, out, w₄, hentered, hran, hfails,
        fun hout hset => Eq.trans hcalm' (hkept hout hset)⟩)

/-- What becomes of a frame that comes back: it answers with the indicator clear, it fails by itself,
or the function that it calls does not answer. -/
theorem function_cases (henv : env.Lawful O) (hcalm : env.Calm) (hf : f.Keeps O env)
    (hw : Ready O .strict 0 w) (clear : w.pending = none) {code : CodeId} {out : Option Handle}
    (hcalls : ∀ l w₁, f.prepare hs env w = .done (.ok l) w₁ →
      ∃ name, w₁.heap.payload? (f.target l) = some (.function name code))
    (hrun : f.function hs env w = .done out w') :
    (∃ h, out = some h ∧ w'.pending = none) ∨
    (∃ d kind w₁, f.body hs env w = .done (.error d) w₁ ∧ d.kind.exception? = some kind ∧
      Raises ⟨kind, d.message⟩ out w') ∨
    ∃ l w₁ w₂, f.prepare hs env w = .done (.ok l) w₁ ∧ f.Passes env l code w₁ w₂.pending ∧
      guarded (.error .alreadyRaised) env w₂ = .done out w' := by
  obtain ⟨r, w₂, hbody, hguarded⟩ := bind_eq_done.1 hrun
  have hdescribed {d : Failure} (hr : r = .error d) (hd : d.kind.exception? ≠ none) :
      ∃ d kind w₁, f.body hs env w = .done (.error d) w₁ ∧ d.kind.exception? = some kind ∧
        Raises ⟨kind, d.message⟩ out w' := by
    subst hr
    obtain ⟨kind, hkind⟩ := Option.ne_none_iff_exists'.1 hd
    obtain ⟨w₃, hrun₃, hpending⟩ := guarded_described hkind env w₂
    obtain ⟨rfl, rfl⟩ := Outcome.done.inj (hrun₃.symm.trans hguarded)
    exact ⟨d, kind, w₂, hbody, hkind, rfl, hpending⟩
  obtain ⟨prepared, w₁, hprepare, hrest⟩ := bind_eq_done.1 hbody
  cases prepared with
  | error d =>
    cases hrest
    exact .inr (.inl (hdescribed rfl (hf.unprepared hs w d _ hprepare)))
  | ok l =>
    obtain ⟨F, hx, hclear, htarget⟩ := hf.exact henv hw clear hprepare
    obtain ⟨name, hfunction⟩ := hcalls l w₁ hprepare
    obtain ⟨h, rfl, hclear₂⟩ | ⟨d, hr, hd⟩ | ⟨rfl, hpasses⟩ :=
      attempt_cases henv hcalm hf hx hclear htarget hfunction hrest
    · cases hguarded
      exact .inl ⟨h, rfl, hclear₂⟩
    · exact .inr (.inl (hdescribed hr hd))
    · exact .inr (.inr ⟨l, w₁, w₂, hprepare, hpasses, hguarded⟩)

end Frame

/-- The peer functions up to the one of the given depth are frames. Each level has an environment of
its own, where the user code of the level is entered. -/
structure Chain (U : Type) where
  depth : Nat
  code : Nat → CodeId
  frame : Nat → Frame U
  env : Nat → Env U

structure Point (U : Type) where
  level : Nat
  arguments : List Handle
  world : World U

namespace Chain

variable (C : Chain U)

def run (x : Point U) : Outcome U (Option Handle) :=
  (C.env x.level).hooks.call (C.code x.level) x.arguments x.world

def body (x : Point U) : Outcome U (Except Failure Handle) :=
  (C.frame x.level).body x.arguments (C.env (x.level + 1)) x.world

inductive Step : Point U → Point U → Prop where
  | intro {i : Nat} {hs ks : List Handle} {l : (C.frame i).Local} {w w₁ w₂ : World U}
      (native : i < C.depth)
      (prepared : (C.frame i).prepare hs (C.env (i + 1)) w = .done (.ok l) w₁)
      (entered : Callable.Enters (C.env (i + 1)) ((C.frame i).target l) ((C.frame i).arguments l)
        ((C.frame i).units l) (C.code (i + 1)) w₁ ks w₂) :
      Step ⟨i, hs, w⟩ ⟨i + 1, ks, w₂⟩

def Reaches : Point U → Point U → Prop := Relation.ReflTransGen C.Step

def Calls (x : Point U) : Prop :=
  ∀ l w₁, (C.frame x.level).prepare x.arguments (C.env (x.level + 1)) x.world = .done (.ok l) w₁ →
    ∃ name, w₁.heap.payload? ((C.frame x.level).target l) =
      some (.function name (C.code (x.level + 1)))

def Proper (x : Point U) : Prop :=
  ∀ out w', C.run x = .done out w' → (out = none ↔ w'.pending ≠ none)

/-- The last function fails with an error pending, or a frame with a failure that it describes. -/
inductive Breaks : Point U → Raised → Prop where
  | last {x : Point U} {e : Raised} {w' : World U} (bottom : x.level = C.depth)
      (failed : C.run x = .done none w') (pending : w'.pending = some e) : Breaks x e
  | frame {x : Point U} {d : Failure} {kind : ExceptionKind} {w' : World U}
      (native : x.level < C.depth) (failed : C.body x = .done (.error d) w')
      (describes : d.kind.exception? = some kind) : Breaks x ⟨kind, d.message⟩

/-- The last function answers an object, or a frame does. -/
inductive Succeeds : Point U → Prop where
  | last {x : Point U} {h : Handle} {w' : World U} (bottom : x.level = C.depth)
      (answered : C.run x = .done (some h) w') : Succeeds x
  | frame {x : Point U} {h : Handle} {w' : World U} (native : x.level < C.depth)
      (answered : C.body x = .done (.ok h) w') : Succeeds x

/-- The functions above the last are the frames, which keep to what is asked of them, and
destructors leave the indicator alone. -/
structure Sound (O : Ownership U) (astray : Prop) : Prop where
  native : ∀ i < C.depth, ∀ hs,
    (C.env i).hooks.call (C.code i) hs = (C.frame i).function hs (C.env (i + 1))
  keeps : ∀ i < C.depth, (C.frame i).Keeps O (C.env (i + 1))
  sheds : ∀ i, (C.env i).Sheds O astray

variable {C} {x y z : Point U} {e : Raised}

theorem Sound.run_native (hC : C.Sound O astray) (native : x.level < C.depth) :
    C.run x = (C.frame x.level).function x.arguments (C.env (x.level + 1)) x.world := by
  rw [run, hC.native x.level native]

theorem Step.native (step : C.Step x y) : x.level < C.depth := by
  cases step
  assumption

theorem Step.unique (step : C.Step x y) (step' : C.Step x z) : y = z := by
  cases step with
  | intro native prepared entered =>
    cases step' with
    | intro native' prepared' entered' =>
      cases prepared.symm.trans prepared'
      obtain ⟨made, converted, dropped, applies, rfl⟩ := entered
      obtain ⟨made', converted', dropped', applies', rfl⟩ := entered'
      cases made.symm.trans made'
      cases converted.symm.trans converted'
      cases dropped.symm.trans dropped'
      have hslots := Payload.tuple.inj (Option.some.inj (applies.2.symm.trans applies'.2))
      obtain ⟨rfl, -⟩ := Payload.function.inj (Option.some.inj (applies.1.symm.trans applies'.1))
      rw [List.map_injective_iff.2 (Option.some_injective _) hslots]

theorem Reaches.cases_step (step : C.Step x y) (hreaches : C.Reaches x z) :
    z = x ∨ C.Reaches y z := by
  induction hreaches using Relation.ReflTransGen.head_induction_on with
  | refl => exact .inl rfl
  | head step' hrest _ =>
    obtain rfl := step.unique step'
    exact .inr hrest

theorem Reaches.eq_of_last (bottom : x.level = C.depth) (hreaches : C.Reaches x z) : z = x := by
  induction hreaches using Relation.ReflTransGen.head_induction_on with
  | refl => rfl
  | head step _ _ => exact absurd step.native (by omega)

theorem Step.sound (hC : C.Sound O astray) (step : C.Step x y) (hcalls : C.Calls x)
    (hx : Ready O .strict 0 x.world) (clear : x.world.pending = none) :
    Ready O .strict 0 y.world ∧ y.world.pending = none := by
  obtain @⟨i, hs, ks, l, w, w₁, w₂, native, prepared, entered⟩ := step
  have hkeeps := hC.keeps i native
  have hsheds := hC.sheds (i + 1)
  obtain ⟨F, hexact, hclear, htarget⟩ := hkeeps.exact hsheds.lawful hx clear prepared
  obtain ⟨name, hfunction⟩ := hcalls _ _ prepared
  exact entered.sound hsheds.lawful hsheds.calm (hkeeps.arguments _) hexact htarget hfunction hclear

theorem Step.raises (hC : C.Sound O astray) (step : C.Step x y) (hcalls : C.Calls x)
    (hx : Ready O .strict 0 x.world) (clear : x.world.pending = none)
    (hy : (C.run y).Settles astray (Raises e)) : (C.run x).Settles astray (Raises e) := by
  obtain ⟨native, prepared, entered⟩ := step
  obtain ⟨name, hfunction⟩ := hcalls _ _ prepared
  rw [hC.run_native native]
  exact Frame.function_raises (hC.sheds _) (hC.keeps _ native) hx clear prepared hfunction entered hy

theorem Breaks.raises (hC : C.Sound O astray) (hbreaks : C.Breaks x e) :
    (C.run x).Settles astray (Raises e) := by
  cases hbreaks with
  | last bottom failed pending =>
    rw [failed]
    exact ⟨rfl, pending⟩
  | frame native failed describes =>
    rw [hC.run_native native, Frame.function, bind_run, show (C.frame x.level).body x.arguments
      (C.env (x.level + 1)) x.world = _ from failed]
    obtain ⟨w', hguarded, hpending⟩ := Frame.guarded_described describes _ _
    dsimp only
    rw [hguarded]
    exact ⟨rfl, hpending⟩

theorem Reaches.sound (hC : C.Sound O astray) (hreaches : C.Reaches x y)
    (hcalls : ∀ z, C.Reaches x z → z.level < C.depth → C.Calls z)
    (hx : Ready O .strict 0 x.world) (clear : x.world.pending = none) :
    Ready O .strict 0 y.world ∧ y.world.pending = none := by
  induction hreaches with
  | refl => exact ⟨hx, clear⟩
  | tail hreaches step ih => exact step.sound hC (hcalls _ hreaches step.native) ih.1 ih.2

/-- Every function above the break raises what was raised there. -/
theorem Reaches.raises (hC : C.Sound O astray) (hreaches : C.Reaches x y)
    (hcalls : ∀ z, C.Reaches x z → z.level < C.depth → C.Calls z)
    (hx : Ready O .strict 0 x.world) (clear : x.world.pending = none) (hbreaks : C.Breaks y e) :
    (C.run x).Settles astray (Raises e) := by
  induction hreaches using Relation.ReflTransGen.head_induction_on with
  | refl => exact hbreaks.raises hC
  | @head x z step _ ih =>
    have hcall := hcalls x .refl step.native
    obtain ⟨hz, hclear⟩ := step.sound hC hcall hx clear
    exact step.raises hC hcall hx clear
      (ih (fun z hz => hcalls z (.head step hz)) hz hclear)

/-- A function of the chain that comes back answers with the indicator clear, or passes on what was
raised at a break below it. -/
theorem Sound.run_cases (hC : C.Sound O astray) (hle : x.level ≤ C.depth)
    (hcalls : ∀ z, C.Reaches x z → z.level < C.depth → C.Calls z)
    (hlast : ∀ z, C.Reaches x z → z.level = C.depth → C.Proper z)
    (hx : Ready O .strict 0 x.world) (clear : x.world.pending = none) {out : Option Handle}
    (hrun : C.run x = .done out w') :
    (∃ h, out = some h ∧ w'.pending = none) ∨
      ∃ y e, C.Reaches x y ∧ C.Breaks y e ∧ Raises e out w' := by
  -- the levels left are fewer at each step
  induction hk : C.depth - x.level generalizing x out w' with
  | zero =>
    have bottom : x.level = C.depth := by omega
    have hproper := hlast x .refl bottom out w' hrun
    cases hpending : w'.pending with
    | none =>
      obtain ⟨h, rfl⟩ := Option.ne_none_iff_exists'.1 fun hout => hproper.1 hout hpending
      exact .inl ⟨h, rfl, rfl⟩
    | some e =>
      obtain rfl := hproper.2 (by simp [hpending])
      exact .inr ⟨x, e, .refl, .last bottom hrun hpending, rfl, hpending⟩
  | succ k ih =>
    have native : x.level < C.depth := by omega
    have hsheds := hC.sheds (x.level + 1)
    rw [hC.run_native native] at hrun
    obtain hanswered | ⟨d, kind, w₁, hbody, hkind, hraises⟩ |
        ⟨l, w₁, w₂, prepared, hpasses, hguarded⟩ :=
      Frame.function_cases hsheds.lawful hsheds.calm (hC.keeps x.level native) hx clear
        (hcalls x .refl native) hrun
    · exact .inl hanswered
    · exact .inr ⟨x, _, .refl, .frame native hbody hkind, hraises⟩
    · obtain ⟨ks, w₃, out', w₄, entered, hrun', hfails, hkept⟩ := hpasses
      have step : C.Step x ⟨x.level + 1, ks, w₃⟩ := .intro native prepared entered
      obtain ⟨hy, hclear⟩ := step.sound hC (hcalls x .refl native) hx clear
      obtain ⟨h, rfl, hclear'⟩ | ⟨y, e, hreaches, hbreaks, rfl, hpending⟩ :=
        ih (x := ⟨x.level + 1, ks, w₃⟩) native (fun z hz => hcalls z (.head step hz))
          (fun z hz => hlast z (.head step hz)) hy hclear hrun'
          (show C.depth - (x.level + 1) = k by omega)
      · exact absurd (hfails.resolve_left nofun) (by simp [hclear'])
      · have hpending₂ : w₂.pending = some e :=
          (hkept rfl (by simp [hpending])).trans hpending
        rw [Frame.guarded_raised rfl hpending₂] at hguarded
        cases hguarded
        exact .inr ⟨y, e, .head step hreaches, hbreaks, rfl, hpending₂⟩

theorem Succeeds.run (hC : C.Sound O astray) (hsucceeds : C.Succeeds x) :
    ∃ h w', C.run x = .done (some h) w' := by
  cases hsucceeds with
  | last _ answered => exact ⟨_, _, answered⟩
  | @frame h w' native answered =>
    refine ⟨h, w', ?_⟩
    rw [hC.run_native native, Frame.function, bind_run, show (C.frame x.level).body x.arguments
      (C.env (x.level + 1)) x.world = _ from answered]
    rfl

def first (w : World U) (name : String) (hs : List Handle) : Point U :=
  ⟨0, hs, w.noting (C.env 0) (.called name hs.length)⟩

/-- The first function of a chain is invoked. Wherever the chain breaks, every function above raises
what was raised there, and so does the invocation. If none breaks, the invocation answers with the
indicator clear; and there is no third way. -/
theorem diagnostics_survive_frames (hC : C.Sound O astray) {callable arguments : Handle}
    {name : String} {hs : List Handle}
    (happlies : w.heap.Applies callable arguments name (C.code 0) hs) (hw : Ready O .strict 0 w)
    (clear : w.pending = none)
    (hcalls : ∀ z, C.Reaches (C.first w name hs) z → z.level < C.depth → C.Calls z)
    (hlast : ∀ z, C.Reaches (C.first w name hs) z → z.level = C.depth → C.Proper z) :
    (∀ y e, C.Reaches (C.first w name hs) y → C.Breaks y e →
      (∀ z, C.Reaches (C.first w name hs) z → C.Reaches z y →
        (C.run z).Settles astray (Raises e)) ∧
      (invoke callable arguments (C.env 0) w).Settles astray (Raises e)) ∧
    ((∀ y, C.Reaches (C.first w name hs) y → C.Succeeds y) →
      ∃ h w', invoke callable arguments (C.env 0) w = .done (some h) w' ∧ w'.pending = none) ∧
    ∀ answer w', invoke callable arguments (C.env 0) w = .done answer w' →
      (∃ h, answer = some h ∧ w'.pending = none) ∨
        ∃ y e, C.Reaches (C.first w name hs) y ∧ C.Breaks y e ∧ Raises e answer w' := by
  have hready : Ready O .strict 0 (C.first w name hs).world := fun hd => by
    obtain ⟨F, hx⟩ := hw hd
    exact ⟨F, Callable.noting_exact (hC.sheds 0).lawful hx⟩
  have hcases {out : Option Handle} {w' : World U}
      (hrun : C.run (C.first w name hs) = .done out w') :=
    hC.run_cases (Nat.zero_le _) hcalls hlast hready clear hrun
  refine ⟨fun y e hy hbreaks => ?_, fun hsucceeds => ?_, fun answer w' hdone => ?_⟩
  · have hraises {z : Point U} (hz : C.Reaches (C.first w name hs) z) (hzy : C.Reaches z y) :
        (C.run z).Settles astray (Raises e) := by
      obtain ⟨hready', hclear⟩ := hz.sound hC hcalls hready clear
      exact hzy.raises hC (fun z' hz' => hcalls z' (hz.trans hz')) hready' hclear hbreaks
    exact ⟨fun z hz hzy => hraises hz hzy, invoke_raises happlies (hraises .refl hy)⟩
  · obtain ⟨h, w', hrun⟩ := (hsucceeds _ .refl).run hC
    obtain ⟨_, -, hclear⟩ | ⟨_, _, _, _, hnone, -⟩ := hcases hrun
    · exact ⟨h, w', (invoke_eq_done happlies).2 ⟨some h, w', hrun, verdict_heard hclear⟩, hclear⟩
    · cases hnone
  · obtain ⟨out, w₁, hrun, hverdict⟩ := (invoke_eq_done happlies).1 hdone
    obtain ⟨h, rfl, hclear⟩ | ⟨y, e, hy, hbreaks, rfl, hpending⟩ := hcases hrun
    · obtain ⟨rfl, rfl⟩ := Outcome.done.inj (hverdict.symm.trans (verdict_heard hclear))
      exact .inl ⟨h, rfl, hclear⟩
    · obtain ⟨rfl, rfl⟩ := Outcome.done.inj (hverdict.symm.trans (verdict_failed hpending))
      exact .inr ⟨y, e, hy, hbreaks, rfl, hpending⟩

open Callable (ownerless)

def relay (next : Handle) : Frame Unit where
  Local := Handle
  Result := Unit
  prepare := fun _ => makeCallable next
  locals := fun h => [h]
  target := id
  arguments := fun _ => []
  units := fun _ => []
  returns := fun _ => .discard ()
  complete := fun h _ => do
    release h
    .ok <$> alloc .none

def relayHooks (call : Env Unit → List Handle → World Unit → Outcome Unit (Option Handle))
    (env : Env Unit) : Hooks Unit where
  call := fun _ => call env
  slot := fun _ _ w => .done none w
  measure := fun _ _ w => .done none w
  destroy := fun _ hs => releaseAll hs env
  toPeer := fun _ _ _ w => .done none w

def raising (env : Env Unit) (_ : List Handle) : World Unit → Outcome Unit (Option Handle) :=
  (do raise .valueError "boom"; pure none : Act Unit (Option Handle)) env

def relays : Nat → Env Unit
  | 0 => .ample (fun _ u => u) (relayHooks raising) 1
  | n + 1 => .ample (fun _ u => u) (relayHooks fun _ hs => (relay ⟨n, 0⟩).function hs (relays n)) 1

def relayChain : Chain Unit where
  depth := 2
  code := fun i => 2 - i
  frame := fun i => relay ⟨2 - (i + 1), 0⟩
  env := fun i => relays (2 - i)

def relayWorld : World Unit :=
  { heap := ((((Heap.empty.insert (.function "last" 0)).2.insert (.function "middle" 1)).2.insert
      (.function "first" 2)).2.insert (.tuple [])).2
    pending := none
    settings := {}
    client := () }

theorem relay_conserves (next : Handle) (hs : List Handle) (d : Discipline) :
    Conserves ownerless d 0 ((relay next).function hs) fun o => ↑o.toList := by
  refine .next (.next (makeCallable_conserves next) fun r => ?_) guarded_conserves
  cases r with
  | error d => exact .pure rfl
  | ok k =>
    have hcall : Conserves ownerless d 0 ((relay next).call k) (unitsOk fun _ => 0) :=
      Callable.call_conserves k (List.forall_mem_nil _) [] trivial
    refine .bind {k} (holding_conserves [k] hcall) (zero_add _).symm fun r => ?_
    cases r with
    | error d => exact .next (releaseAll_conserves [k]) fun _ => .pure rfl
    | ok v => exact .next (release_conserves k) fun _ => .map (allocLeaf_conserves rfl)

theorem raising_conserves (hs : List Handle) (d : Discipline) :
    Conserves ownerless d 0 (fun env => raising env hs) fun o => ↑o.toList :=
  .next (raise_conserves _ _) fun _ => .pure rfl

theorem relayHooks_lawful {call : Env Unit → List Handle → World Unit → Outcome Unit (Option Handle)}
    {env : Env Unit} (henv : env.Lawful ownerless)
    (hcall : ∀ d hs w, Ready ownerless d 0 w →
      (call env hs w).Conserved ownerless d 0 w fun o => ↑o.toList) :
    (relayHooks call env).Lawful ownerless where
  call := fun d _ hs w hw => hcall d hs w hw
  slot := fun _ _ _ _ _ => ⟨.refl, rfl⟩
  measure := fun _ _ _ _ _ => ⟨.refl, rfl⟩
  destroy := fun _ _ hs w hw => releaseAll_conserves hs env henv w hw
  toPeer := fun _ _ _ _ _ _ => ⟨.refl, rfl⟩

theorem relayHooks_sheds {call : Env Unit → List Handle → World Unit → Outcome Unit (Option Handle)}
    (hcall : ∀ env, env.Lawful ownerless → ∀ d hs w, Ready ownerless d 0 w →
      (call env hs w).Conserved ownerless d 0 w fun o => ↑o.toList) :
    (Env.ample (fun _ u => u) (relayHooks call) 1).Sheds ownerless False := by
  have hlawful (n : Nat) : (Env.tie (fun _ u => u) (relayHooks call) n).Lawful ownerless :=
    tie_lawful (fun _ _ => rfl) (fun _ _ => rfl) (fun _ _ h => h)
      (fun env henv => relayHooks_lawful henv (hcall env henv)) n
  have hcalm (n : Nat) : (Env.tie (fun _ u => u) (relayHooks call) n).Calm :=
    tie_calm (fun _ hc _ hs _ => releaseAll_calm hc hs) n
  refine ⟨Env.ample_lawful hlawful fun env henv => relayHooks_lawful henv (hcall env henv),
    Env.ample_calm hcalm, fun h w ready => ?_⟩
  have hfrees : (Env.ample (fun _ u => u) (relayHooks call) 1).Frees ownerless w.heap.stats.live :=
    Env.ample_frees hlawful (fun env n henv hf _ hs w ready hlive =>
      releaseAll_frees henv hf hs ready hlive) _
  exact (hfrees h w ready le_rfl).mono fun _ _ _ _ => trivial

theorem relays_sheds (n : Nat) : (relays n).Sheds ownerless False := by
  induction n with
  | zero => exact relayHooks_sheds fun env henv d hs w hw => raising_conserves hs d env henv w hw
  | succ n ih =>
    exact relayHooks_sheds fun _ _ d hs w hw => relay_conserves ⟨n, 0⟩ hs d _ ih.lawful w hw

theorem relay_keeps (next : Handle) {env : Env Unit} (hcalm : env.Calm) :
    (relay next).Keeps ownerless env where
  prepare := fun _ => (makeCallable_conserves next).of_eq rfl fun r => by cases r <;> rfl
  prepared := fun _ w k w' clear hrun => by
    obtain ⟨w₁, hmade, hkept, -⟩ | ⟨_, hmade⟩ := Callable.makeCallable_cases next env w
    · cases hmade.symm.trans hrun
      exact ⟨hkept.trans clear, List.mem_singleton_self _⟩
    · cases hmade.symm.trans hrun
  unprepared := fun _ w d w' hrun => by
    obtain ⟨w₁, hmade, -⟩ | ⟨_, hmade⟩ := Callable.makeCallable_cases next env w
    · cases hmade.symm.trans hrun
    · cases hmade.symm.trans hrun
      exact nofun
  arguments := fun _ => List.forall_mem_nil _
  returns := fun _ => trivial
  completed := fun k _ w h w' clear hrun => by
    obtain ⟨_, w₁, hrelease, hrest⟩ := bind_eq_done.1 hrun
    obtain ⟨_, w₂, halloc, hpure⟩ := bind_eq_done.1 hrest
    obtain ⟨_, hrun₂, hkept, -⟩ := alloc_run .none env w₁
    cases hrun₂.symm.trans halloc
    cases hpure
    have hcalm' := hcalm k w
    rw [show env.release k w = .done () w₁ from hrelease] at hcalm'
    exact hkept.trans (hcalm'.trans clear)
  incomplete := fun k _ w d w' hrun => by
    obtain ⟨_, w₁, -, hrest⟩ := bind_eq_done.1 hrun
    obtain ⟨_, w₂, -, hpure⟩ := bind_eq_done.1 hrest
    cases hpure

theorem relayChain_sound : relayChain.Sound ownerless False where
  native := fun i hi hs => by
    match i, hi with
    | 0, _ | 1, _ => rfl
  keeps := fun i _ => relay_keeps _ (relays_sheds _).calm
  sheds := fun i => relays_sheds _

theorem relay_prepared {n : Nat} {name : String} {hs : List Handle} {env : Env Unit}
    {w w' : World Unit} {k : Handle} (hfunction : w.heap.payload? ⟨n, 0⟩ = some (.function name n))
    (hrun : (relay ⟨n, 0⟩).prepare hs env w = .done (.ok k) w') :
    w'.heap.payload? k = some (.function name n) := by
  obtain ⟨w₁, hmade, -, hpayload⟩ | ⟨_, hmade⟩ := Callable.makeCallable_cases ⟨n, 0⟩ env w
  · cases hmade.symm.trans hrun
    rw [hpayload, hfunction]
  · cases hmade.symm.trans hrun

theorem relayWorld_ready : Ready ownerless .strict 0 relayWorld := by
  have hempty : Exact ownerless 0 { relayWorld with heap := .empty } :=
    ⟨Heap.empty_inOrder, fun _ => rfl, trivial⟩
  have hx : Exact ownerless _ relayWorld :=
    (((hempty.insert_leaf (.function "last" 0) rfl).insert_leaf (.function "middle" 1)
      rfl).insert_leaf (.function "first" 2) rfl).insert_leaf (.tuple []) rfl
  exact hx.idle

theorem raising_done {env : Env Unit} (hs : List Handle) {w w' : World Unit} {out : Option Handle}
    (hrun : raising env hs w = .done out w') :
    out = none ∧ w'.pending = some ⟨.valueError, "boom"⟩ := by
  obtain ⟨_, w₁, hraise, hpure⟩ := bind_eq_done.1 hrun
  cases hpure
  exact ⟨rfl, (indicatorRaise_done hraise).1⟩

theorem relay_steps :
    ∃ w₁ w₂, relayChain.Step (relayChain.first relayWorld "first" []) ⟨1, [], w₁⟩ ∧
      relayChain.Step ⟨1, [], w₁⟩ ⟨2, [], w₂⟩ ∧
      w₁.heap.payload? ⟨0, 0⟩ = some (.function "last" 0) ∧
      ∃ w₃, relayChain.run ⟨2, [], w₂⟩ = .done none w₃ :=
  ⟨_, _, .intro (by decide) rfl (.intro rfl rfl rfl ⟨rfl, rfl⟩ rfl),
    .intro (by decide) rfl (.intro rfl rfl rfl ⟨rfl, rfl⟩ rfl), rfl, _, rfl⟩

theorem relay_calls {w₁ w₂ : World Unit}
    (step₁ : relayChain.Step (relayChain.first relayWorld "first" []) ⟨1, [], w₁⟩)
    (step₂ : relayChain.Step ⟨1, [], w₁⟩ ⟨2, [], w₂⟩)
    (hlast : w₁.heap.payload? ⟨0, 0⟩ = some (.function "last" 0)) :
    (∀ z, relayChain.Reaches (relayChain.first relayWorld "first" []) z →
      z.level < relayChain.depth → relayChain.Calls z) ∧
    ∀ z, relayChain.Reaches (relayChain.first relayWorld "first" []) z →
      z.level = relayChain.depth → relayChain.Proper z := by
  have hcases {z : Point Unit} (hz : relayChain.Reaches (relayChain.first relayWorld "first" []) z) :
      z = relayChain.first relayWorld "first" [] ∨ z = ⟨1, [], w₁⟩ ∨ z = ⟨2, [], w₂⟩ :=
    (hz.cases_step step₁).imp_right fun hz =>
      (hz.cases_step step₂).imp_right (Reaches.eq_of_last rfl)
  refine ⟨fun z hz native => ?_, fun z hz bottom => ?_⟩
  · obtain rfl | rfl | rfl := hcases hz
    · exact fun k w hprepare => ⟨"middle", relay_prepared rfl hprepare⟩
    · exact fun k w hprepare => ⟨"last", relay_prepared hlast hprepare⟩
    · exact absurd native (lt_irrefl _)
  · obtain rfl | rfl | rfl := hcases hz
    · exact absurd bottom (by decide : (0 : Nat) ≠ 2)
    · exact absurd bottom (by decide : (1 : Nat) ≠ 2)
    · intro out w' hrun
      obtain ⟨rfl, hpending⟩ := raising_done [] hrun
      simp [hpending]

theorem diagnostics_survive_frames_relay :
    ∃ w', invoke ⟨2, 0⟩ ⟨3, 0⟩ (relayChain.env 0) relayWorld = .done none w' ∧
      w'.pending = some ⟨.valueError, "boom"⟩ := by
  obtain ⟨w₁, w₂, step₁, step₂, hlast, w₃, hrun⟩ := relay_steps
  obtain ⟨hcalls, hproper⟩ := relay_calls step₁ step₂ hlast
  have hbreaks : relayChain.Breaks ⟨2, [], w₂⟩ ⟨.valueError, "boom"⟩ :=
    .last rfl hrun (raising_done [] hrun).2
  have happlies : relayWorld.heap.Applies ⟨2, 0⟩ ⟨3, 0⟩ "first" 2 [] := ⟨rfl, rfl⟩
  obtain ⟨hraises, -⟩ :=
    diagnostics_survive_frames relayChain_sound happlies relayWorld_ready rfl hcalls hproper
  have h := hraises _ _ (.tail (.single step₁) step₂) hbreaks
  -- the invocation as a variable, or it is run to see what it settles
  generalize invoke ⟨2, 0⟩ ⟨3, 0⟩ (relayChain.env 0) relayWorld = out at h ⊢
  obtain ⟨_, w', rfl, rfl, hpending⟩ := h.2.exists_done
  exact ⟨w', rfl, hpending⟩

end Chain

end Causeway
