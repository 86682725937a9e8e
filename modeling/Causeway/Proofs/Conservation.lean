import Causeway.Proofs.Ownership
import Causeway.Reference
/-!
# Conservation

An action conserves units if, begun with certain units in hand, it makes only moves that the
discipline allows and has certain units in hand when it answers. A fault may drop units on its way
out, so after one only the lax discipline is promised; under the strict one a fault is never a
double release.

Conservation composes: what follows are the rules for the ways in which actions are put together.
Each action of the library then needs one short derivation. No action is claimed to finish.
-/
set_option autoImplicit false

namespace Causeway

variable {U α β γ : Type}

/-- How an action ended that began with `H` in hand in the world `w`, and answers `a` with `K a` in
hand. -/
def Outcome.Conserved (O : Ownership U) (d : Discipline) (H : Multiset Handle) (w : World U)
    (K : α → Multiset Handle) : Outcome U α → Prop
  | .done a w' => Path O d (H, w) (K a, w') ∧ O.scope w'.client = O.scope w.client
  | .fault c w' => Path O .lax (H, w) (0, w') ∧ (d = .strict → ∀ h, c ≠ .doubleRelease h)
  | .unfinished => True

/-- What the strict discipline takes for granted: the counts are exact, whatever else is in some
other hand. -/
def Ready (O : Ownership U) (d : Discipline) (H : Multiset Handle) (w : World U) : Prop :=
  d = .strict → ∃ F, Exact O (H + F) w

/-- User code that keeps to the discipline wherever the library enters it. -/
structure Hooks.Lawful (O : Ownership U) (hooks : Hooks U) : Prop where
  call : ∀ d code arguments w, Ready O d 0 w →
    (hooks.call code arguments w).Conserved O d 0 w fun o => ↑o.toList
  slot : ∀ d code h w, Ready O d 0 w →
    (hooks.slot code h w).Conserved O d 0 w fun o => ↑o.toList
  measure : ∀ d code h w, Ready O d 0 w →
    (hooks.measure code h w).Conserved O d 0 w fun _ => 0
  destroy : ∀ d code (units : List Handle) w, Ready O d ↑units w →
    (hooks.destroy code units w).Conserved O d ↑units w fun _ => 0
  toPeer : ∀ d code t v w, Ready O d 0 w →
    (hooks.toPeer code t v w).Conserved O d 0 w fun o => ↑o.toList

structure Env.Lawful (O : Ownership U) (env : Env U) : Prop where
  release : ∀ d h w, Ready O d {h} w → (env.release h w).Conserved O d {h} w fun _ => 0
  observe_units : ∀ e c, O.units (env.observe e c) = O.units c
  observe_scope : ∀ e c, O.scope (env.observe e c) = O.scope c
  observe_sound : ∀ e c, O.sound c → O.sound (env.observe e c)
  hooks : env.hooks.Lawful O

namespace Act

def Conserves (O : Ownership U) (d : Discipline) (H : Multiset Handle) (act : Act U α)
    (K : α → Multiset Handle) : Prop :=
  ∀ env, env.Lawful O → ∀ w, Ready O d H w → (act env w).Conserved O d H w K

/-- An action that at most looks around, in whatever environment. -/
def Reads (act : Act U α) : Prop :=
  ∀ w, (∀ env, act env w = .unfinished) ∨ ∃ a, ∀ env, act env w = .done a w

end Act

variable {O : Ownership U} {d : Discipline} {H H' I : Multiset Handle} {w w₁ : World U}
  {K K' : α → Multiset Handle} {L : β → Multiset Handle}

theorem Ready.lax : Ready O .lax H w := by
  intro hd
  cases hd

theorem Exact.ready (hx : Exact O H w) : Ready O d H w :=
  fun _ => ⟨0, by rwa [add_zero]⟩

theorem Exact.idle (hx : Exact O H w) : Ready O d 0 w :=
  fun _ => ⟨H, by rwa [zero_add]⟩

theorem Ready.of_frame (E : Multiset Handle) (hw : Ready O d (H + E) w) : Ready O d H w := by
  intro hd
  obtain ⟨F, hF⟩ := hw hd
  exact ⟨E + F, by rwa [← add_assoc]⟩

theorem Ready.path (hw : Ready O d H w) (m : Path O d (H, w) (I, w₁)) : Ready O d I w₁ := by
  intro hd
  subst hd
  obtain ⟨F, hF⟩ := hw rfl
  exact ⟨F, m.exact_frame hF⟩

theorem Ready.sound (hw : Ready O d H w) (hd : d = .strict) : O.sound w.client := by
  obtain ⟨F, hF⟩ := hw hd
  exact hF.sound

namespace Outcome

theorem Conserved.after {out : Outcome U α} (m : Path O d (H, w) (I, w₁))
    (hscope : O.scope w₁.client = O.scope w.client) (hout : out.Conserved O d I w₁ K) :
    out.Conserved O d H w K := by
  cases out with
  | done a w' => exact ⟨m.trans hout.1, hout.2.trans hscope⟩
  | fault c w' => exact ⟨m.lax.trans hout.1, hout.2⟩
  | unfinished => trivial

theorem Conserved.step {out : Outcome U α} (m : Move O d (H, w) (I, w₁))
    (hscope : O.scope w₁.client = O.scope w.client) (hw : Ready O d H w)
    (hout : Ready O d I w₁ → out.Conserved O d I w₁ K) : out.Conserved O d H w K :=
  .after (.single m) hscope (hout (hw.path (.single m)))

theorem Conserved.update {out : Outcome U α} (c : U)
    (units : d = .strict → H + O.units w.client = I + O.units c)
    (sound : d = .strict → O.sound w.client → O.sound c)
    (scope : O.scope c = O.scope w.client) (hw : Ready O d H w)
    (hout : Ready O d I { w with client := c } → out.Conserved O d I { w with client := c } K) :
    out.Conserved O d H w K := by
  have m : Move O d (H, w) (I, { w with client := c }) := .outside rfl units sound
  exact .step m scope hw hout

theorem Conserved.frame {out : Outcome U α} (hout : out.Conserved O d H w K)
    (E : Multiset Handle) : out.Conserved O d (H + E) w fun a => K a + E := by
  cases out with
  | done a w' => exact ⟨hout.1.frame E, hout.2⟩
  | fault c w' => exact ⟨hout.1.anyUnits _ _, hout.2⟩
  | unfinished => trivial

/-- The first action may run in a world `w₁` that other actions led to. -/
theorem Conserved.bind {x : Act U α} {f : α → Act U β} {env : Env U}
    (hx : (x env w₁).Conserved O d H w K)
    (hf : ∀ a w', x env w₁ = .done a w' → (f a env w').Conserved O d (K a) w' L) :
    ((x >>= f) env w₁).Conserved O d H w L := by
  rw [Act.bind_run]
  cases hr : x env w₁ with
  | done a w' =>
    rw [hr] at hx
    exact Conserved.after hx.1 hx.2 (hf a w' hr)
  | fault c w' =>
    rw [hr] at hx
    exact hx
  | unfinished => trivial

theorem Conserved.ready {a : α} {w' : World U}
    (hout : (Outcome.done a w').Conserved O d H w K) (hw : Ready O d H w) : Ready O d (K a) w' :=
  hw.path hout.1

end Outcome

namespace Act

theorem Conserves.of_eq {act : Act U α} (hact : Conserves O d H act K) (hH : H = H')
    (hK : ∀ a, K a = K' a) : Conserves O d H' act K' := by
  have hfun : K = K' := funext hK
  rwa [← hH, ← hfun]

theorem Conserves.frame {act : Act U α} (hact : Conserves O d H act K) (E : Multiset Handle) :
    Conserves O d (H + E) act fun a => K a + E :=
  fun env henv w hw => (hact env henv w (hw.of_frame E)).frame E

theorem Conserves.anyUnits {act : Act U α} (hact : Conserves O .lax H act K)
    (H' : Multiset Handle) (K' : α → Multiset Handle) : Conserves O .lax H' act K' := by
  intro env henv w _
  have hout := hact env henv w .lax
  cases hr : act env w with
  | done a w' =>
    rw [hr] at hout
    exact ⟨hout.1.anyUnits _ _, hout.2⟩
  | fault c w' =>
    rw [hr] at hout
    exact ⟨hout.1.anyUnits _ _, by simp⟩
  | unfinished => trivial

theorem Conserves.pure {a : α} (h : H = K a) : Conserves O d H (pure a : Act U α) K := by
  intro env henv w hs
  refine ⟨?_, rfl⟩
  rw [h]
  exact .refl

theorem Conserves.next {x : Act U α} {f : α → Act U β} (hx : Conserves O d H x K)
    (hf : ∀ a, Conserves O d (K a) (f a) L) : Conserves O d H (x >>= f) L := by
  intro env henv w hw
  have hout := hx env henv w hw
  refine hout.bind fun a w' hr => hf a env henv w' ?_
  rw [hr] at hout
  exact hout.ready hw

/-- The first action uses `I` only; the second takes the rest as well. -/
theorem Conserves.bind {x : Act U α} {f : α → Act U β} (E : Multiset Handle)
    (hx : Conserves O d I x K) (hH : H = I + E) (hf : ∀ a, Conserves O d (K a + E) (f a) L) :
    Conserves O d H (x >>= f) L := by
  rw [hH]
  exact (hx.frame E).next hf

theorem Conserves.map {x : Act U α} {f : α → β} (hx : Conserves O d H x fun a => L (f a)) :
    Conserves O d H (f <$> x) L :=
  hx.next fun _ => .pure rfl

theorem Conserves.fault {c : Fault} (hc : ∀ h, c ≠ .doubleRelease h) :
    Conserves O d H (Act.fault c : Act U α) K :=
  fun _ _ w _ => ⟨.adjust H 0 w, fun _ => hc⟩

theorem reserve_conserves (count width : Nat) :
    Conserves O d H (Act.reserve count width : Act U Unit) fun _ => H := by
  unfold Act.reserve
  split
  · exact .pure rfl
  · exact .fault nofun

def Cleans (O : Ownership U) (act : Act U α) : Prop :=
  ∀ env, env.Lawful O → ∀ w,
    match act env w with
    | .done _ w' | .fault _ w' => Path O .lax (0, w) (0, w')
    | .unfinished => True

theorem Conserves.cleans {act : Act U α} (hact : Conserves O .lax H act K) : Cleans O act := by
  intro env henv w
  have hout := hact env henv w .lax
  cases hr : act env w with
  | done a w' =>
    rw [hr] at hout
    exact hout.1.anyUnits _ _
  | fault c w' =>
    rw [hr] at hout
    exact hout.1.anyUnits _ _
  | unfinished => trivial

theorem Conserves.onFaultOf {act : Act U α} {cleanup : Act U Unit}
    (hact : Conserves O d H act K) (hclean : Cleans O cleanup) :
    Conserves O d H (act.onFault cleanup) K := by
  intro env henv w hw
  have hout := hact env henv w hw
  cases hr : act env w with
  | done a w' =>
    rw [hr] at hout
    simpa only [Act.onFault, hr] using hout
  | fault c w' =>
    rw [hr] at hout
    have hc := hclean env henv w'
    cases hr' : cleanup env w' with
    | done a w'' =>
      rw [hr'] at hc
      simpa only [Act.onFault, hr, hr'] using ⟨hout.1.trans hc, hout.2⟩
    | fault c' w'' =>
      rw [hr'] at hc
      simpa only [Act.onFault, hr, hr'] using ⟨hout.1.trans hc, hout.2⟩
    | unfinished =>
      simp only [Act.onFault, hr, hr']
      trivial
  | unfinished =>
    simp only [Act.onFault, hr]
    trivial

theorem Conserves.onFault {act : Act U α} {cleanup : Act U Unit} {J : Unit → Multiset Handle}
    (hact : Conserves O d H act K) (hclean : Conserves O .lax I cleanup J) :
    Conserves O d H (act.onFault cleanup) K :=
  hact.onFaultOf hclean.cleans

/-- A loop ends in an outcome with the property `Q` if every round either does or starts over in a
world with the property `P`. -/
theorem loopFor_rule {body : β → Act U (β ⊕ α)} {env : Env U} {P : β → World U → Prop}
    {Q : Outcome U α → Prop} (unfinished : Q .unfinished)
    (round : ∀ b w, P b w → match body b env w with
      | .done (.inl b') w' => P b' w'
      | .done (.inr a) w' => Q (.done a w')
      | .fault c w' => Q (.fault c w')
      | .unfinished => True) (n : Nat) (b : β) (w : World U) (h : P b w) :
    Q (Act.loopFor body n b env w) := by
  induction n generalizing b w with
  | zero => exact unfinished
  | succ n ih =>
    have hround := round b w h
    unfold Act.loopFor
    cases hr : body b env w with
    | done r w' =>
      rw [hr] at hround
      cases r with
      | inl b' => exact ih b' w' hround
      | inr a => exact hround
    | fault c w' =>
      rw [hr] at hround
      exact hround
    | unfinished => exact unfinished

/-- A loop whose body has `I b` in hand whenever it starts over with `b`. -/
theorem Conserves.loop {body : β → Act U (β ⊕ α)} {I : β → Multiset Handle}
    (hbody : ∀ b, Conserves O d (I b) (body b) (Sum.elim I K)) (b : β) :
    Conserves O d (I b) (Act.loop body b) K := by
  intro env henv w hw
  refine loopFor_rule (Q := fun out => out.Conserved O d (I b) w K)
    (P := fun b' w' => Path O d (I b, w) (I b', w') ∧ O.scope w'.client = O.scope w.client)
    trivial (fun b' w' h => ?_) env.budget b w ⟨.refl, rfl⟩
  obtain ⟨m, hscope⟩ := h
  have hout := (hbody b' env henv w' (hw.path m)).after m hscope
  cases hr : body b' env w' with
  | done r w'' =>
    rw [hr] at hout
    cases r <;> exact hout
  | fault c w'' =>
    rw [hr] at hout
    exact hout
  | unfinished => trivial

def Answers (act : Act U α) (φ : α → Prop) : Prop :=
  ∀ env w a w', act env w = .done a w' → φ a

theorem Answers.pure {a : α} {φ : α → Prop} (h : φ a) : (pure a : Act U α).Answers φ := by
  intro env w b w' hr
  cases hr
  exact h

theorem Answers.next {x : Act U α} {f : α → Act U β} {φ : α → Prop} {ψ : β → Prop}
    (hx : x.Answers φ) (hf : ∀ a, φ a → (f a).Answers ψ) : (x >>= f).Answers ψ := by
  intro env w b w' hr
  rw [bind_run] at hr
  cases ha : x env w with
  | done a w₁ =>
    rw [ha] at hr
    exact hf a (hx env w a w₁ ha) env w₁ b w' hr
  | fault c w₁ => simp [ha] at hr
  | unfinished => simp [ha] at hr

theorem Answers.bind {x : Act U α} {f : α → Act U β} {ψ : β → Prop}
    (hf : ∀ a, (f a).Answers ψ) : (x >>= f).Answers ψ := by
  have hx : x.Answers fun _ => True := fun _ _ _ _ _ => trivial
  exact hx.next fun a _ => hf a

/-- As `next`, where the second action needs to know what the first one answers. -/
theorem Conserves.nextOf {x : Act U α} {f : α → Act U β} {φ : α → Prop} (hφ : x.Answers φ)
    (hx : Conserves O d H x K) (hf : ∀ a, φ a → Conserves O d (K a) (f a) L) :
    Conserves O d H (x >>= f) L := by
  intro env henv w hw
  have hout := hx env henv w hw
  refine hout.bind fun a w' hr => hf a (hφ env w a w' hr) env henv w' ?_
  rw [hr] at hout
  exact hout.ready hw

theorem Conserves.mapM {f : β → Act U α} {bs : List β}
    (hf : ∀ b ∈ bs, Conserves O d 0 (f b) fun _ => 0) :
    Conserves O d 0 (bs.mapM f) fun _ => 0 := by
  have rounds : ∀ bs made, (∀ b ∈ bs, Conserves O d 0 (f b) fun _ => 0) →
      Conserves O d 0 (List.mapM.loop f bs made) fun _ => 0 := by
    intro bs
    induction bs with
    | nil => exact fun _ _ => .pure rfl
    | cons b bs ih =>
      exact fun made hf => (hf b List.mem_cons_self).next fun a =>
        ih (a :: made) fun b hb => hf b (List.mem_cons_of_mem _ hb)
  exact rounds bs [] hf

theorem Reads.pure (a : α) : (pure a : Act U α).Reads := fun _ => .inr ⟨a, fun _ => rfl⟩

theorem Reads.heap (f : Heap → α) : (Act.heap f : Act U α).Reads := fun _ => .inr ⟨_, fun _ => rfl⟩

theorem Reads.settings : (Act.settings : Act U Settings).Reads := fun _ => .inr ⟨_, fun _ => rfl⟩

theorem Reads.world : (Act.world : Act U (World U)).Reads := fun _ => .inr ⟨_, fun _ => rfl⟩

theorem Reads.client : (Act.client : Act U U).Reads := fun _ => .inr ⟨_, fun _ => rfl⟩

theorem Reads.ofOption (o : Option α) : (Act.ofOption o : Act U α).Reads := by
  cases o with
  | none => exact fun _ => .inl fun _ => rfl
  | some a => exact Reads.pure a

theorem Reads.bind {x : Act U α} {f : α → Act U β} (hx : x.Reads) (hf : ∀ a, (f a).Reads) :
    (x >>= f).Reads := by
  intro w
  obtain hr | ⟨a, hr⟩ := hx w
  · exact .inl fun env => by rw [bind_run, hr]
  · refine (hf a w).imp (fun h env => ?_) fun ⟨b, h⟩ => ⟨b, fun env => ?_⟩
    · rw [bind_run, hr]
      exact h env
    · rw [bind_run, hr]
      exact h env

theorem Reads.map {x : Act U α} (hx : x.Reads) (f : α → β) : (f <$> x).Reads :=
  hx.bind fun _ => .pure _

theorem Conserves.reads {x : Act U α} (hx : x.Reads) : Conserves O d H x fun _ => H := by
  intro env henv w hs
  obtain hr | ⟨a, hr⟩ := hx w
  · rw [hr]
    trivial
  · rw [hr]
    exact ⟨.refl, rfl⟩

theorem Conserves.ask {x : Act U α} {f : α → Act U β} (hx : x.Reads)
    (hf : ∀ a, Conserves O d H (f a) L) : Conserves O d H (x >>= f) L :=
  (Conserves.reads hx).next hf

theorem Conserves.ofHeap {f : Heap → β} {g : β → Act U α}
    (hg : ∀ b env w, env.Lawful O → Ready O d H w → f w.heap = b →
      (g b env w).Conserved O d H w K) :
    Conserves O d H (Act.heap f >>= g) K :=
  fun env henv w hw => hg _ env w henv hw rfl

theorem Conserves.ofClient {g : U → Act U α}
    (hg : ∀ env w, env.Lawful O → Ready O d H w → (g w.client env w).Conserved O d H w K) :
    Conserves O d H (Act.client >>= g) K :=
  fun env henv w hw => hg env w henv hw

/-- An action that changes neither the heap nor what the client owns. -/
theorem Conserves.of_heap_eq {act : Act U α}
    (hact : ∀ env, env.Lawful O → ∀ w, ∃ a w', act env w = .done a w' ∧ w'.heap = w.heap ∧
      O.units w'.client = O.units w.client ∧ O.scope w'.client = O.scope w.client ∧
      (d = .strict → O.sound w.client → O.sound w'.client)) :
    Conserves O d 0 act fun _ => 0 := by
  intro env henv w hs
  obtain ⟨a, w', hr, hheap, hunits, hscope, hsound⟩ := hact env henv w
  rw [hr]
  exact ⟨.single (.outside hheap (fun _ => by rw [hunits]) hsound), hscope⟩

theorem Conserves.emit (e : Log.Event) : Conserves O d 0 (Act.emit e : Act U Unit) fun _ => 0 :=
  .of_heap_eq fun _ henv w =>
    ⟨(), _, rfl, rfl, henv.observe_units e w.client, henv.observe_scope e w.client,
      fun _ => henv.observe_sound e w.client⟩

/-- An action that keeps its hands to itself, before one that uses what is in hand. -/
theorem Conserves.aside {x : Act U α} {f : α → Act U β} (hx : Conserves O d 0 x fun _ => 0)
    (hf : ∀ a, Conserves O d H (f a) L) : Conserves O d H (x >>= f) L :=
  hx.bind H (by simp) fun a => (hf a).of_eq (by simp) fun _ => rfl

end Act

namespace Outcome

theorem Conserved.of_act {act : Act U α} {env : Env U} (hact : act.Conserves O d H K)
    (henv : env.Lawful O) (hw : Ready O d H w) : (act env w).Conserved O d H w K :=
  hact env henv w hw

theorem Conserved.change {h : Handle} {p p' : Payload} {f : Unit → Act U α} {env : Env U}
    (found : w.heap.payload? h = some p) (legal : p.Change p')
    (units : H + ↑p.units = H' + ↑p'.units) (henv : env.Lawful O) (hw : Ready O d H w)
    (hf : (f ()).Conserves O d H' K) :
    ((Act.setPayload h p' >>= f) env w).Conserved O d H w K :=
  .step (.change found legal units) rfl hw fun ready => hf env henv _ ready

theorem Conserved.changeLast {h : Handle} {p p' : Payload} {env : Env U}
    (found : w.heap.payload? h = some p) (legal : p.Change p')
    (units : H + ↑p.units = H' + ↑p'.units) :
    (Act.setPayload h p' env w).Conserved O d H w fun _ => H' :=
  ⟨.single (.change found legal units), rfl⟩

end Outcome

def unitsIf (units : α → Multiset Handle) : Option α → Multiset Handle
  | some a => units a
  | none => 0

theorem unitsIf_coe (units : α → List Handle) (o : Option α) :
    unitsIf (fun a => ↑(units a)) o = ↑(o.toList.flatMap units) := by
  cases o <;> simp [unitsIf]

def unitsOk (units : α → Multiset Handle) : Except Failure α → Multiset Handle
  | .ok a => units a
  | .error _ => 0

end Causeway
