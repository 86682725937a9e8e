import Causeway.Proofs.Composition
import Causeway.Proofs.ProgramRuns
/-!
# What acts keep to

The worlds an act starts and ends in, faults included, may be in a relation; or where an invariant
holds at the start it holds at the end. Either passes from acts to what they are composed of; here
that is said once, by sequence, choice and repetition. User code of any depth keeps to an invariant
if the library does in its steps and the client in its own.

An invariant is kept in two environments at a time, in which acts do the same. The second one may be
an environment in which user code does not come back if it is entered where the invariant fails: so
user code is entered where it holds.
-/
set_option autoImplicit false

namespace Causeway

open Act

variable {U α β : Type} {R : World U → World U → Prop} {I : World U → Prop} {env env' : Env U}

/-- A sequence of acts ends where the second one does, unless the first one faults. -/
theorem Act.endsIn_bind {x : Act U α} {f : α → Act U β} {w w' : World U}
    (hend : ((x >>= f) env w).EndsIn w') :
    (∃ a w₁, x env w = .done a w₁ ∧ (f a env w₁).EndsIn w') ∨ (x env w).EndsIn w' := by
  rw [bind_run] at hend
  cases hr : x env w with
  | done a w₁ =>
    rw [hr] at hend
    exact .inl ⟨a, w₁, rfl, hend⟩
  | fault c w₁ =>
    rw [hr] at hend
    exact .inr hend
  | unfinished =>
    rw [hr] at hend
    cases hend

/-- However the act ends, the relation leads there. -/
def Act.Along (R : World U → World U → Prop) (env : Env U) (act : Act U α) : Prop :=
  ∀ w w', (act env w).EndsIn w' → R w w'

namespace Act.Along

variable (trans : ∀ w w₁ w₂, R w w₁ → R w₁ w₂ → R w w₂)

theorem done {act : Act U α} (hact : act.Along R env) {w w' : World U} {a : α}
    (hr : act env w = .done a w') : R w w' :=
  hact w w' (by rw [hr]; rfl)

include trans

theorem bind {x : Act U α} {f : α → Act U β} (hx : x.Along R env) (hf : ∀ a, (f a).Along R env) :
    (x >>= f).Along R env := by
  intro w w' hend
  obtain ⟨a, w₁, hr, hrest⟩ | hfault := endsIn_bind hend
  · exact trans _ _ _ (hx.done hr) (hf a w₁ w' hrest)
  · exact hx w w' hfault

theorem onFault {act : Act U α} {cleanup : Act U Unit} (hact : act.Along R env)
    (hclean : cleanup.Along R env) : (act.onFault cleanup).Along R env := by
  intro w w' hend
  unfold Act.onFault at hend
  cases hr : act env w with
  | fault c w₁ =>
    have hfirst := hact w w₁ (hr ▸ rfl)
    simp only [hr] at hend
    cases hc : cleanup env w₁ with
    | done _ w₂ | fault _ w₂ =>
      rw [hc] at hend
      exact trans _ _ _ hfirst (hclean w₁ w' (hc ▸ hend))
    | unfinished =>
      rw [hc] at hend
      cases hend
  | done a w₁ =>
    rw [hr] at hend
    exact hact w w' (hr ▸ hend)
  | unfinished =>
    rw [hr] at hend
    cases hend

theorem loop (refl : ∀ w, R w w) {body : β → Act U (β ⊕ α)} (hbody : ∀ b, (body b).Along R env)
    (b : β) : (Act.loop body b).Along R env := by
  intro w
  refine loopFor_rule (P := fun _ w₁ => R w w₁)
    (Q := fun out => ∀ w', out.EndsIn w' → R w w') (fun _ hend => hend.elim)
    (fun b w₁ h => ?_) env.budget b w (refl w)
  cases hr : body b env w₁ with
  | done r w₂ =>
    have hround := trans _ _ _ h (hbody b w₁ w₂ (hr ▸ rfl))
    cases r with
    | inl b' => exact hround
    | inr a => exact fun w' hend => hend ▸ hround
  | fault c w₂ => exact fun w' hend => trans _ _ _ h (hbody b w₁ w' (hr ▸ hend))
  | unfinished => trivial

end Act.Along

/-- The second outcome is the same, and the invariant holds where it ends. -/
def Outcome.Keeps (I : World U → Prop) (out out' : Outcome U α) : Prop :=
  out' = out ∧ ∀ w, out.EndsIn w → I w

/-- Where the invariant holds the act does the same in both environments, and however it ends the
invariant holds there. -/
def Act.Keeps (I : World U → Prop) (env env' : Env U) (act : Act U α) : Prop :=
  ∀ w, I w → (act env w).Keeps I (act env' w)

structure Hooks.Keeps (I : World U → Prop) (hooks hooks' : Hooks U) : Prop where
  call : ∀ code hs w, I w → (hooks.call code hs w).Keeps I (hooks'.call code hs w)
  slot : ∀ code h w, I w → (hooks.slot code h w).Keeps I (hooks'.slot code h w)
  measure : ∀ code h w, I w → (hooks.measure code h w).Keeps I (hooks'.measure code h w)
  destroy : ∀ code hs w, I w → (hooks.destroy code hs w).Keeps I (hooks'.destroy code hs w)
  toPeer : ∀ code t v w, I w → (hooks.toPeer code t v w).Keeps I (hooks'.toPeer code t v w)

structure Env.Keeps (I : World U → Prop) (env env' : Env U) : Prop where
  budget : env'.budget = env.budget
  observe : env'.observe = env.observe
  release : ∀ h, (Causeway.release h).Keeps I env env'
  hooks : env.hooks.Keeps I env'.hooks

theorem Outcome.Keeps.here {w : World U} (hw : I w) (a : α) :
    (Outcome.done a w).Keeps I (.done a w) :=
  ⟨rfl, fun _ hend => hend ▸ hw⟩

theorem Outcome.Keeps.unfinished : (Outcome.unfinished : Outcome U α).Keeps I .unfinished :=
  ⟨rfl, fun _ hend => hend.elim⟩

theorem Outcome.Keeps.fault {w : World U} (hw : I w) (c : Fault) :
    (Outcome.fault c w : Outcome U α).Keeps I (.fault c w) :=
  ⟨rfl, fun _ hend => hend ▸ hw⟩

namespace Act.Keeps

theorem done {act : Act U α} (hact : act.Keeps I env env') {w w' : World U} (hw : I w) {a : α}
    (hr : act env w = .done a w') : I w' :=
  (hact w hw).2 w' (hr ▸ rfl)

theorem of_done {act : Act U α}
    (hact : ∀ w, I w → ∃ a w', act env w = .done a w' ∧ act env' w = .done a w' ∧ I w') :
    act.Keeps I env env' := by
  intro w hw
  obtain ⟨a, w', hr, hr', hw'⟩ := hact w hw
  rw [hr, hr']
  exact .here hw' a

theorem fault (c : Fault) : (Act.fault c : Act U α).Keeps I env env' := fun _ hw => .fault hw c

theorem reads {act : Act U α} (hact : act.Reads) : act.Keeps I env env' := by
  intro w hw
  obtain hr | ⟨a, hr⟩ := hact w <;> rw [hr env, hr env']
  · exact .unfinished
  · exact .here hw a

theorem pure (a : α) : (Pure.pure a : Act U α).Keeps I env env' := reads (.pure a)

theorem caught {act : Act U α} (hact : act.Keeps I env env') : act.caught.Keeps I env env' := by
  intro w hw
  obtain ⟨hsame, hends⟩ := hact w hw
  unfold Act.caught
  rw [hsame]
  cases hr : act env w with
  | done a w₁ => exact .here (hends w₁ (hr ▸ rfl)) _
  | fault c w₁ => exact .here (hends w₁ (hr ▸ rfl)) _
  | unfinished => exact .unfinished

theorem bind {x : Act U α} {f : α → Act U β} (hx : x.Keeps I env env')
    (hf : ∀ a, (f a).Keeps I env env') : (x >>= f).Keeps I env env' := by
  intro w hw
  obtain ⟨hsame, hends⟩ := hx w hw
  rw [bind_run, bind_run, hsame]
  cases hr : x env w with
  | done a w₁ => exact hf a w₁ (hends w₁ (hr ▸ rfl))
  | fault c w₁ => exact .fault (hends w₁ (hr ▸ rfl)) c
  | unfinished => exact .unfinished

theorem onFault {act : Act U α} {cleanup : Act U Unit} (hact : act.Keeps I env env')
    (hclean : cleanup.Keeps I env env') : (act.onFault cleanup).Keeps I env env' := by
  intro w hw
  obtain ⟨hsame, hends⟩ := hact w hw
  unfold Act.onFault
  rw [hsame]
  cases hr : act env w with
  | done a w₁ => exact .here (hends w₁ (hr ▸ rfl)) a
  | fault c w₁ =>
    obtain ⟨hsame₁, hends₁⟩ := hclean w₁ (hends w₁ (hr ▸ rfl))
    dsimp only
    rw [hsame₁]
    cases hc : cleanup env w₁ with
    | done _ w₂ | fault _ w₂ => exact .fault (hends₁ w₂ (hc ▸ rfl)) c
    | unfinished => exact .unfinished
  | unfinished => exact .unfinished

theorem loop (budget : env'.budget = env.budget) {body : β → Act U (β ⊕ α)}
    (hbody : ∀ b, (body b).Keeps I env env') (b : β) : (Act.loop body b).Keeps I env env' := by
  intro w hw
  unfold Act.loop
  rw [budget]
  -- the rounds that are left
  generalize env.budget = n
  induction n generalizing b w with
  | zero => exact .unfinished
  | succ n ih =>
    obtain ⟨hsame, hends⟩ := hbody b w hw
    unfold Act.loopFor
    rw [hsame]
    cases hr : body b env w with
    | done r w₁ =>
      have hw₁ := hends w₁ (hr ▸ rfl)
      cases r with
      | inl b' => exact ih b' w₁ hw₁
      | inr a => exact .here hw₁ a
    | fault c w₁ => exact .fault (hends w₁ (hr ▸ rfl)) c
    | unfinished => exact .unfinished

theorem releaseAll (henv : env.Keeps I env') (hs : List Handle) :
    (Causeway.releaseAll hs : Act U Unit).Keeps I env env' := by
  induction hs with
  | nil => exact pure ()
  | cons h hs ih => exact bind (onFault (henv.release h) ih) fun _ => ih

end Act.Keeps

def Log.Event.object? : Log.Event → Option Handle
  | .allocated h _ | .acquired h _ | .released h _ | .deallocated h _ => some h
  | _ => none

theorem Log.Event.object?_of_isAside {e : Log.Event} (aside : e.isAside = true) :
    e.object? = none := by
  cases e <;> first | rfl | cases aside

/-- The world in which a change of a count has been told of if references are traced. -/
def Env.report (env : Env U) (e : Log.Event) (w : World U) : World U :=
  if w.settings.traceReferences then { w with client := env.observe e w.client } else w

/-- An invariant that the library keeps to in each of its steps. A count is changed and told of in
one. -/
structure Env.Steps (I : World U → Prop) (env : Env U) : Prop where
  insert : ∀ w p, I w → I (env.report (.allocated (w.heap.insert p).1 p.typeName)
    { w with heap := (w.heap.insert p).2 })
  increment : ∀ {w : World U} {h : Handle} {n : Nat} {heap : Heap},
    w.heap.increment? h = some (n, heap) → I w → I (env.report (.acquired h n) { w with heap })
  alive : ∀ {w : World U} {h : Handle} {n : Nat} {heap : Heap},
    w.heap.decrement? h = some (.alive n, heap) → I w →
      I (env.report (.released h n) { w with heap })
  dead : ∀ {w : World U} {h : Handle} {p : Payload} {heap : Heap},
    w.heap.decrement? h = some (.dead p, heap) → I w →
      I (env.report (.deallocated h p.typeName) { w with heap })
  setPayload : ∀ (w : World U) h p, I w → I { w with heap := w.heap.setPayload h p }
  emit : ∀ (w : World U) (e : Log.Event), e.object? = none → I w →
    I { w with client := env.observe e w.client }
  swap : ∀ (w : World U) next, I w → I { w with pending := next }

theorem traced_report (e : Log.Event) (env : Env U) (w : World U) :
    traced e env w = .done () (env.report e w) := by
  unfold traced Env.report
  rw [bind_run]
  simp only [Act.settings]
  split <;> rfl

namespace Act.Keeps

variable (steps : env.Steps I) (henv : env.Keeps I env')

include henv in
theorem report_eq (e : Log.Event) (w : World U) : env'.report e w = env.report e w := by
  unfold Env.report
  rw [henv.observe]

include henv in
theorem traced_bind {e : Log.Event} {f : Unit → Act U α} {w : World U} (hw : I (env.report e w))
    (hf : (f ()).Keeps I env env') :
    ((traced e >>= f) env w).Keeps I ((traced e >>= f) env' w) := by
  rw [bind_run, bind_run, traced_report, traced_report, report_eq henv]
  exact hf _ hw

include steps henv

theorem alloc (p : Payload) : (Causeway.alloc p : Act U Handle).Keeps I env env' :=
  fun w hw => traced_bind (f := fun _ => Pure.pure (w.heap.insert p).1) henv
    (steps.insert w p hw) (pure _)

theorem acquire (h : Handle) : (Causeway.acquire h : Act U Handle).Keeps I env env' := by
  intro w hw
  unfold Causeway.acquire
  rw [bind_run, bind_run]
  simp only [updateHeap?]
  cases hi : w.heap.increment? h with
  | none => exact fault _ w hw
  | some r => exact traced_bind (f := fun _ => Pure.pure h) henv (steps.increment hi hw) (pure _)

theorem emit {e : Log.Event} (he : e.object? = none) :
    (Act.emit e : Act U Unit).Keeps I env env' :=
  of_done fun w hw => ⟨(), _, rfl, by rw [Act.emit, henv.observe], steps.emit w e he hw⟩

omit henv in
theorem swap (next : Option Raised) :
    (Indicator.swap next : Act U (Option Raised)).Keeps I env env' :=
  of_done fun w hw => ⟨_, _, rfl, rfl, steps.swap w next hw⟩

omit henv in
theorem setPayload (h : Handle) (p : Payload) :
    (Act.setPayload h p : Act U Unit).Keeps I env env' :=
  of_done fun w hw => ⟨_, _, rfl, rfl, steps.setPayload w h p hw⟩

theorem raise (kind : ExceptionKind) (message : String) :
    (Causeway.raise kind message : Act U Unit).Keeps I env env' := by
  refine bind (emit steps henv rfl) fun _ => bind (swap steps _) fun previous => ?_
  cases previous with
  | none => exact pure ()
  | some previous =>
    refine bind (reads .settings) fun settings => ?_
    split
    · exact fault _
    · exact emit steps henv rfl

theorem nextItem (it : Handle) :
    (Causeway.nextItem it : Act U (Option Handle)).Keeps I env env' := by
  have hmove : ∀ n, (moveTo it n : Act U Unit).Keeps I env env' := fun n => by
    refine bind (reads (.heap _)) fun p => ?_
    split
    · exact setPayload steps _ _
    · exact pure ()
  refine bind (reads (.heap _)) fun p => ?_
  split
  · refine bind (reads (askPayload_reads _ _)) fun step => ?_
    split
    · exact bind (acquire steps henv _) fun _ => bind (hmove _) fun _ => pure _
    · exact bind (alloc steps henv _) fun _ => bind (hmove _) fun _ => pure _
    · exact pure none
  · exact pure none

omit henv in
theorem putStateBack (obj : Handle) (s : NativeState) :
    (Causeway.putStateBack obj s : Act U Bool).Keeps I env env' := by
  refine bind (reads (.heap _)) fun p => ?_
  split
  · exact bind (setPayload steps _ _) fun _ => pure _
  · exact pure _

theorem disposeState (d : Descriptor) (s : NativeState) :
    (Causeway.disposeState d s : Act U Unit).Keeps I env env' := by
  unfold Causeway.disposeState
  cases d.dealloc with
  | drop => exact bind (emit steps henv rfl) fun _ => releaseAll henv _
  | user code => exact henv.hooks.destroy code s.units

theorem dispose (p : Payload) : (Causeway.dispose p : Act U Unit).Keeps I env env' := by
  unfold Causeway.dispose
  split
  · exact disposeState steps henv _ _
  · exact releaseAll henv _

theorem releaseNow (h : Handle) : (Causeway.releaseNow h : Act U Unit).Keeps I env env' := by
  intro w hw
  unfold Causeway.releaseNow
  rw [bind_run, bind_run]
  simp only [updateHeap?]
  cases hd : w.heap.decrement? h with
  | none => exact fault _ w hw
  | some r =>
    obtain ⟨r, heap⟩ := r
    cases r with
    | alive n =>
      dsimp only
      rw [traced_report, traced_report, report_eq henv]
      exact .here (steps.alive hd hw) ()
    | dead p => exact traced_bind henv (steps.dead hd hw) (dispose steps henv p)

theorem withState (obj : Handle) (kind : StateKind) (units : α → List Handle)
    {f : kind.State → Act U (kind.State × α)} (hf : ∀ s, (f s).Keeps I env env') :
    (Causeway.withState obj kind units f).Keeps I env env' := by
  have hrefuse : ∀ kind message,
      (do Causeway.raise kind message; Pure.pure none : Act U (Option α)).Keeps I env env' :=
    fun kind message => bind (raise steps henv kind message) fun _ => pure none
  have hback : ∀ (d : Descriptor) (s : NativeState) (hs : List Handle),
      (holding hs (Causeway.disposeState d s) : Act U Unit).Keeps I env env' := fun d s hs =>
    onFault (disposeState steps henv d s) (releaseAll henv hs)
  refine bind (reads (.heap _)) fun p => ?_
  split
  · exact hrefuse _ _
  · exact hrefuse _ _
  · rename_i d s
    refine bind (setPayload steps _ _) fun _ => ?_
    split
    · rename_i typed _
      refine bind (hf typed) fun r => bind (putStateBack steps obj _) fun back => ?_
      cases back with
      | true => exact pure _
      | false => exact bind (hback d _ _) fun _ => pure _
    · refine bind (onFault (raise steps henv _ _) (releaseAll henv _)) fun _ =>
        bind (putStateBack steps obj _) fun back => ?_
      cases back with
      | true => exact pure _
      | false => exact bind (disposeState steps henv d _) fun _ => pure _
  · exact hrefuse _ _

end Act.Keeps

/-- What is composed of acts of the library keeps to an invariant that the library keeps to in its
steps, if the acts of the client do. -/
theorem Act.Composed.keeps {own : (α : Type) → Act U α → Prop} (steps : env.Steps I)
    (henv : env.Keeps I env')
    (hown : ∀ (α : Type) (act : Act U α), own α act → act.Keeps I env env')
    {act : Act U α} (h : Composed own act) : act.Keeps I env env' := by
  induction h with
  | own h => exact hown _ _ h
  | reads h => exact .reads h
  | bind _ _ ihx ihf => exact .bind ihx ihf
  | fault c => exact .fault c
  | onFault _ _ ihact ihclean => exact .onFault ihact ihclean
  | loop _ b ih => exact .loop henv.budget ih b
  | emit e aside => exact .emit steps henv (Log.Event.object?_of_isAside aside)
  | swap next => exact .swap steps next
  | acquire h => exact .acquire steps henv h
  | release h => exact henv.release h
  | alloc _ => exact .alloc steps henv _
  | instantiate s _ => exact .alloc steps henv _
  | revise next _ agree ih =>
    intro w hw
    obtain hr | ⟨h, p, p', -, -, hr⟩ := agree w
    · rw [hr, hr]
      exact ih w w hw
    · rw [hr, hr]
      exact ih w _ (steps.setPayload w h p' hw)
  | nextItem it => exact .nextItem steps henv it
  | withState obj kind units _ _ ih => exact .withState steps henv obj kind units ih
  | call code hs => exact henv.hooks.call code hs
  | slot code h => exact henv.hooks.slot code h
  | measure code h => exact henv.hooks.measure code h
  | toPeer code t v => exact henv.hooks.toPeer code t v

/-- However deep user code nests, it keeps to the invariant. -/
theorem tie_keeps {observe : Log.Event → U → U} {user user' : Env U → Hooks U}
    (steps : ∀ n, (Env.tie observe user n).Steps I)
    (huser : ∀ n, (Env.tie observe user n).Keeps I (.tie observe user' n) →
      (user (.tie observe user n)).Keeps I (user' (.tie observe user' n))) (n : Nat) :
    (Env.tie observe user n).Keeps I (.tie observe user' n) := by
  induction n with
  | zero =>
    exact ⟨rfl, rfl, fun _ _ _ => .unfinished, fun _ _ _ _ => .unfinished,
      fun _ _ _ _ => .unfinished, fun _ _ _ _ => .unfinished, fun _ _ _ _ => .unfinished,
      fun _ _ _ _ _ => .unfinished⟩
  | succ n ih =>
    exact ⟨rfl, rfl, fun h => Act.Keeps.releaseNow (steps n) ih h, huser n ih⟩

end Causeway
