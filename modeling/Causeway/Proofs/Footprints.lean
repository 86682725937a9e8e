import Causeway.Proofs.Composition
import Causeway.Proofs.Overlay
/-!
# What becomes of the client

The library changes its client in no way of its own: it has it take note of events, and it enters
user code. So a relation that these keep to, from before to after, every act of the library keeps to
when it comes back.
-/
set_option autoImplicit false

namespace Causeway

open Act

variable {U α β : Type} {R : U → U → Prop} {env : Env U}

/-- What is said of how a run settles holds of a run that comes back. -/
theorem Outcome.Settles.holds {astray : Prop} {P : α → World U → Prop} {out : Outcome U α} {a : α}
    {w : World U} (h : out.Settles astray P) (run : out = .done a w) : P a w := by
  rw [run] at h
  exact h

/-- If each round comes back as the next one needs it, whoever leaves the loop is well. -/
theorem Act.loop_settles {body : β → Act U (β ⊕ α)} {I : β → World U → Prop}
    {Q : α → World U → Prop} {b : β} {w : World U}
    (round : ∀ b w, I b w → (body b env w).Settles True fun r w' =>
      r.elim (fun b' => I b' w') fun a => Q a w') (h : I b w) :
    (Act.loop body b env w).Settles True Q := by
  refine loopFor_rule (P := I) (Q := fun out => out.Settles True Q) trivial (fun b w hI => ?_)
    env.budget b w h
  have hround := round b w hI
  cases hr : body b env w with
  | done r w' =>
    rw [hr] at hround
    cases r with
    | inl b' => exact hround
    | inr a => exact hround
  | fault c w' => trivial
  | unfinished => trivial

/-- User code under which the client only changes as the relation says. -/
structure Env.Moves (R : U → U → Prop) (env : Env U) : Prop where
  refl : ∀ u, R u u
  trans : ∀ u u₁ u₂, R u u₁ → R u₁ u₂ → R u u₂
  observe : ∀ e u, R u (env.observe e u)
  release : ∀ h w, (env.release h w).Settles True fun _ w' => R w.client w'.client
  call : ∀ code hs w, (env.hooks.call code hs w).Settles True fun _ w' => R w.client w'.client
  slot : ∀ code h w, (env.hooks.slot code h w).Settles True fun _ w' => R w.client w'.client
  measure : ∀ code h w, (env.hooks.measure code h w).Settles True fun _ w' => R w.client w'.client
  destroy : ∀ code hs w, (env.hooks.destroy code hs w).Settles True fun _ w' => R w.client w'.client
  toPeer : ∀ code t v w,
    (env.hooks.toPeer code t v w).Settles True fun _ w' => R w.client w'.client

def Act.Moves (R : U → U → Prop) (env : Env U) (act : Act U α) : Prop :=
  ∀ w, (act env w).Settles True fun _ w' => R w.client w'.client

namespace Act.Moves

variable (henv : env.Moves R)

include henv

theorem pure (a : α) : (Pure.pure a : Act U α).Moves R env := fun w => henv.refl w.client

theorem bind {x : Act U α} {f : α → Act U β} (hx : x.Moves R env) (hf : ∀ a, (f a).Moves R env) :
    (x >>= f).Moves R env :=
  fun w => (hx w).bind fun a w₁ _ h => (hf a w₁).mono fun _ _ _ h' => henv.trans _ _ _ h h'

theorem reads {x : Act U α} (hx : x.Reads) : x.Moves R env := by
  intro w
  obtain hr | ⟨a, hr⟩ := hx w
  · rw [hr]
    trivial
  · rw [hr]
    exact henv.refl w.client

theorem emit (e : Log.Event) : (Act.emit e : Act U Unit).Moves R env :=
  fun w => henv.observe e w.client

omit henv in
theorem onFault {act : Act U α} {cleanup : Act U Unit} (hact : act.Moves R env) :
    (act.onFault cleanup).Moves R env :=
  fun w => onFault_settles cleanup (hact w)

theorem loop {body : β → Act U (β ⊕ α)} (hbody : ∀ b, (body b).Moves R env) (b : β) :
    (Act.loop body b).Moves R env := by
  intro w
  refine loop_settles (I := fun _ w' => R w.client w'.client) (fun b w₁ h => ?_)
    (henv.refl w.client)
  refine (hbody b w₁).mono fun r w₂ _ h' => ?_
  cases r with
  | inl b' => exact henv.trans _ _ _ h h'
  | inr a => exact henv.trans _ _ _ h h'

theorem traced (e : Log.Event) : (Causeway.traced e : Act U Unit).Moves R env := by
  refine bind henv (reads henv .settings) fun settings => ?_
  split
  · exact emit henv e
  · exact pure henv ()

theorem of_client_eq {act : Act U α}
    (hact : ∀ w, (act env w).Settles True fun _ w' => w'.client = w.client) : act.Moves R env :=
  fun w => (hact w).mono fun _ _ _ h => h ▸ henv.refl w.client

theorem updateHeap (f : Heap → α × Heap) : (Act.updateHeap f).Moves R env :=
  of_client_eq henv fun _ => rfl

theorem updateHeap? (f : Heap → Option (α × Heap)) : (Act.updateHeap? f).Moves R env := by
  refine of_client_eq henv fun w => ?_
  unfold Act.updateHeap?
  dsimp only
  cases f w.heap <;> rfl

theorem alloc (p : Payload) : (Causeway.alloc p : Act U Handle).Moves R env :=
  bind henv (updateHeap henv _) fun _ => bind henv (traced henv _) fun _ => pure henv _

theorem acquire (h : Handle) : (Causeway.acquire h : Act U Handle).Moves R env := by
  refine bind henv (updateHeap? henv _) fun o => ?_
  cases o with
  | none => exact fun _ => trivial
  | some n => exact bind henv (traced henv _) fun _ => pure henv _

theorem nextItem (it : Handle) : (Causeway.nextItem it : Act U (Option Handle)).Moves R env := by
  have hmove : ∀ n, (moveTo it n : Act U Unit).Moves R env := fun n => by
    refine bind henv (reads henv (.heap _)) fun p => ?_
    split
    · exact updateHeap henv _
    · exact pure henv ()
  refine bind henv (reads henv (.heap _)) fun p => ?_
  split
  · refine bind henv (reads henv (askPayload_reads _ _)) fun step => ?_
    split
    · exact bind henv (acquire henv _) fun _ => bind henv (hmove _) fun _ => pure henv _
    · exact bind henv (alloc henv _) fun _ => bind henv (hmove _) fun _ => pure henv _
    · exact pure henv none
  · exact pure henv none

omit henv in
theorem release (henv : env.Moves R) (h : Handle) : (Causeway.release h : Act U Unit).Moves R env :=
  henv.release h

theorem releaseAll (hs : List Handle) : (Causeway.releaseAll hs : Act U Unit).Moves R env := by
  induction hs with
  | nil => exact pure henv ()
  | cons h hs ih => exact bind henv (onFault (release henv h)) fun _ => ih

theorem raise (kind : ExceptionKind) (message : String) :
    (Causeway.raise kind message : Act U Unit).Moves R env := by
  refine bind henv (emit henv _) fun _ => ?_
  refine bind henv (of_client_eq henv fun _ => rfl) fun previous => ?_
  cases previous with
  | none => exact pure henv ()
  | some previous =>
    refine bind henv (reads henv .settings) fun settings => ?_
    split
    · exact fun _ => trivial
    · exact emit henv _

theorem disposeState (d : Descriptor) (s : NativeState) :
    (Causeway.disposeState d s : Act U Unit).Moves R env := by
  unfold Causeway.disposeState
  cases d.dealloc with
  | drop => exact bind henv (emit henv _) fun _ => releaseAll henv _
  | user code => exact henv.destroy code s.units

theorem putStateBack (obj : Handle) (s : NativeState) :
    (Causeway.putStateBack obj s : Act U Bool).Moves R env := by
  refine bind henv (reads henv (.heap _)) fun p => ?_
  split
  · exact bind henv (updateHeap henv _) fun _ => pure henv _
  · exact pure henv _

theorem withState (obj : Handle) (kind : StateKind) (units : α → List Handle)
    {f : kind.State → Act U (kind.State × α)} (hf : ∀ s, (f s).Moves R env) :
    (Causeway.withState obj kind units f).Moves R env := by
  refine bind henv (reads henv (.heap _)) fun p => ?_
  split
  · exact bind henv (raise henv _ _) fun _ => pure henv _
  · exact bind henv (raise henv _ _) fun _ => pure henv _
  · rename_i d s
    refine bind henv (updateHeap henv _) fun _ => ?_
    split
    · rename_i typed _
      refine bind henv (hf typed) fun r => ?_
      refine bind henv (putStateBack henv obj _) fun back => ?_
      cases back with
      | true => exact pure henv _
      | false => exact bind henv (onFault (disposeState henv d _)) fun _ => pure henv _
    · refine bind henv (onFault (raise henv _ _)) fun _ => ?_
      refine bind henv (putStateBack henv obj _) fun back => ?_
      cases back with
      | true => exact pure henv _
      | false => exact bind henv (disposeState henv d _) fun _ => pure henv _
  · exact bind henv (raise henv _ _) fun _ => pure henv _

end Act.Moves

/-- What is composed of acts of the library moves the client as the relation says. -/
theorem Act.Composed.moves {own : (α : Type) → Act U α → Prop} (henv : env.Moves R)
    (hown : ∀ (α : Type) (act : Act U α), own α act → act.Moves R env) {act : Act U α}
    (h : Composed own act) : act.Moves R env := by
  induction h with
  | own h => exact hown _ _ h
  | reads h => exact .reads henv h
  | bind _ _ ihx ihf => exact .bind henv ihx ihf
  | fault c => exact fun _ => trivial
  | onFault _ _ ihact _ => exact .onFault ihact
  | loop _ b ih => exact .loop henv ih b
  | emit e _ => exact .emit henv e
  | swap next => exact .of_client_eq henv fun _ => rfl
  | acquire h => exact .acquire henv h
  | release h => exact .release henv h
  | alloc _ => exact .alloc henv _
  | instantiate s _ => exact .alloc henv _
  | revise next _ agree ih =>
    intro w
    obtain hr | ⟨h, p, p', -, -, hr⟩ := agree w
    · rw [hr]
      exact ih w w
    · rw [hr]
      exact ih w _
  | nextItem it => exact .nextItem henv it
  | withState obj kind units _ _ ih => exact .withState henv obj kind units ih
  | call code hs => exact henv.call code hs
  | slot code h => exact henv.slot code h
  | measure code h => exact henv.measure code h
  | toPeer code t v => exact henv.toPeer code t v

/-- An act of the library that has none of the client's among it. -/
theorem Act.Moves.library (henv : env.Moves R) {act : Act U α}
    (h : Composed (fun _ _ => False) act) : act.Moves R env :=
  h.moves henv fun _ _ => False.elim

end Causeway
