import Causeway.Proofs.Settling
import Causeway.View
/-!
# Runs that the peer cannot tell apart

A client may keep things for itself: what its own deleters count, say. Two worlds look alike if they
differ in nothing else. Whatever runs for the peer from worlds that look alike does the same: it
comes back in both, with the same answer and in worlds that look alike again, or in neither. Nothing
is said about how it fails to come back.
-/
set_option autoImplicit false

namespace Causeway

open Act

variable {U α β γ δ : Type}

/-- Worlds that differ at most in what `sight` does not see of the client. -/
structure World.Alike (sight : Setoid U) (w w' : World U) : Prop where
  heap : w.heap = w'.heap
  pending : w.pending = w'.pending
  settings : w.settings = w'.settings
  client : sight.r w.client w'.client

namespace World.Alike

variable {sight : Setoid U} {w w₁ w₂ : World U}

theorem refl (w : World U) : w.Alike sight w := ⟨rfl, rfl, rfl, sight.iseqv.refl _⟩

theorem symm (h : w.Alike sight w₁) : w₁.Alike sight w :=
  ⟨h.heap.symm, h.pending.symm, h.settings.symm, sight.iseqv.symm h.client⟩

theorem trans (h : w.Alike sight w₁) (h' : w₁.Alike sight w₂) : w.Alike sight w₂ :=
  ⟨h.heap.trans h'.heap, h.pending.trans h'.pending, h.settings.trans h'.settings,
    sight.iseqv.trans h.client h'.client⟩

end World.Alike

/-- Both come back, with related answers and in worlds that look alike, or neither does. -/
def Outcome.Matches (sight : Setoid U) (R : α → β → Prop) : Outcome U α → Outcome U β → Prop
  | .done a w, .done b w' => R a b ∧ w.Alike sight w'
  | .done _ _, .fault _ _ | .done _ _, .unfinished => False
  | .fault _ _, .done _ _ | .unfinished, .done _ _ => False
  | _, _ => True

namespace Outcome.Matches

variable {sight : Setoid U} {R : α → β → Prop} {Q : γ → δ → Prop} {env : Env U} {w w' : World U}
  {x : Act U α} {y : Act U β}

theorem bind {f : α → Act U γ} {g : β → Act U δ} (hxy : (x env w).Matches sight R (y env w'))
    (hfg : ∀ a b w₁ w₁', x env w = .done a w₁ → y env w' = .done b w₁' → R a b →
      w₁.Alike sight w₁' → (f a env w₁).Matches sight Q (g b env w₁')) :
    ((x >>= f) env w).Matches sight Q ((y >>= g) env w') := by
  rw [bind_run, bind_run]
  cases hx : x env w <;> cases hy : y env w' <;> rw [hx, hy] at hxy
  case done.done a w₁ b w₁' => exact hfg a b w₁ w₁' hx hy hxy.1 hxy.2
  all_goals first | exact hxy.elim | trivial

theorem mono {o : Outcome U α} {o' : Outcome U β} {R' : α → β → Prop} (h : o.Matches sight R o')
    (hR : ∀ a b, R a b → R' a b) : o.Matches sight R' o' := by
  cases o <;> cases o'
  case done.done a w b w' => exact ⟨hR a b h.1, h.2⟩
  all_goals exact h

theorem after {f : α → Act U γ} {Q : γ → β → Prop}
    (hxy : (x env w).Matches sight R (y env w'))
    (hf : ∀ a b w₁ w₁', y env w' = .done b w₁' → R a b → w₁.Alike sight w₁' →
      (f a env w₁).Matches sight Q (.done b w₁')) :
    ((x >>= f) env w).Matches sight Q (y env w') := by
  rw [bind_run]
  cases hx : x env w <;> cases hy : y env w' <;> rw [hx, hy] at hxy
  case done.done a w₁ b w₁' => exact hf a b w₁ w₁' hy hxy.1 hxy.2
  all_goals first | exact hxy.elim | trivial

/-- Only a run that does not come back is changed by a cleanup. -/
theorem onFault {cleanup : Act U Unit} (h : (x env w).Matches sight R (y env w')) :
    (x.onFault cleanup env w).Matches sight R (y env w') := by
  unfold Act.onFault
  cases hx : x env w with
  | fault c w₁ =>
    rw [hx] at h
    cases hy : y env w' <;> rw [hy] at h <;> dsimp only <;> cases cleanup env w₁ <;> exact h
  | done a w₁ =>
    rw [hx] at h
    exact h
  | unfinished =>
    rw [hx] at h
    exact h

theorem symm {o : Outcome U α} {o' : Outcome U β} (h : o.Matches sight R o') :
    o'.Matches sight (fun b a => R a b) o := by
  cases o <;> cases o'
  case done.done => exact ⟨h.1, h.2.symm⟩
  all_goals exact h

theorem forward {o : Outcome U α} {o' : Outcome U β} (h : o.Matches sight R o') {a : α}
    (ho : o = .done a w) : ∃ b w', o' = .done b w' ∧ R a b ∧ w.Alike sight w' := by
  subst ho
  cases o'
  case done b w' => exact ⟨b, w', rfl, h⟩
  all_goals exact h.elim

theorem backward {o : Outcome U α} {o' : Outcome U β} (h : o.Matches sight R o') {b : β}
    (ho : o' = .done b w') : ∃ a w, o = .done a w ∧ R a b ∧ w.Alike sight w' := by
  subst ho
  cases o
  case done a w => exact ⟨a, w, rfl, h⟩
  all_goals exact h.elim

end Outcome.Matches

def Act.Respects (sight : Setoid U) (env : Env U) (act : Act U α) : Prop :=
  ∀ w w', w.Alike sight w' → (act env w).Matches sight (· = ·) (act env w')

/-- The act answers `a`, and nothing that the peer could see comes of it. -/
def Act.Inert (sight : Setoid U) (env : Env U) (act : Act U α) (a : α) : Prop :=
  ∀ w, ∃ w', act env w = .done a w' ∧ w'.Alike sight w

theorem Act.Inert.matches {sight : Setoid U} {env : Env U} {w w' : World U} {x : Act U α} {a : α}
    {f : α → Act U γ} {o : Outcome U β} {R : γ → β → Prop} (hx : x.Inert sight env a)
    (hw : w.Alike sight w')
    (hf : ∀ w₁, w₁.Alike sight w' → (f a env w₁).Matches sight R o) :
    ((x >>= f) env w).Matches sight R o := by
  obtain ⟨w₁, hrun, hback⟩ := hx w
  rw [bind_run, hrun]
  exact hf w₁ (hback.trans hw)

theorem Act.Inert.onFault {sight : Setoid U} {env : Env U} {x : Act U α} {a : α}
    (hx : x.Inert sight env a) (cleanup : Act U Unit) : (x.onFault cleanup).Inert sight env a := by
  intro w
  obtain ⟨w', hrun, hback⟩ := hx w
  exact ⟨w', by rw [Act.onFault, hrun], hback⟩

/-- User code that sees no more of the client than `sight` does. -/
structure Hooks.Respects (sight : Setoid U) (hooks : Hooks U) : Prop where
  call : ∀ code hs w w', w.Alike sight w' →
    (hooks.call code hs w).Matches sight (· = ·) (hooks.call code hs w')
  slot : ∀ code h w w', w.Alike sight w' →
    (hooks.slot code h w).Matches sight (· = ·) (hooks.slot code h w')
  measure : ∀ code h w w', w.Alike sight w' →
    (hooks.measure code h w).Matches sight (· = ·) (hooks.measure code h w')
  destroy : ∀ code hs w w', w.Alike sight w' →
    (hooks.destroy code hs w).Matches sight (· = ·) (hooks.destroy code hs w')
  toPeer : ∀ code t v w w', w.Alike sight w' →
    (hooks.toPeer code t v w).Matches sight (· = ·) (hooks.toPeer code t v w')

structure Env.Respects (sight : Setoid U) (env : Env U) : Prop where
  release : ∀ h w w', w.Alike sight w' →
    (env.release h w).Matches sight (· = ·) (env.release h w')
  observe : ∀ e u u', sight.r u u' → sight.r (env.observe e u) (env.observe e u')
  hooks : env.hooks.Respects sight

namespace Act.Respects

variable {sight : Setoid U} {env : Env U}

theorem pure (a : α) : (Pure.pure a : Act U α).Respects sight env := fun _ _ h => ⟨rfl, h⟩

theorem bind {x : Act U α} {f : α → Act U β} (hx : x.Respects sight env)
    (hf : ∀ a, (f a).Respects sight env) : (x >>= f).Respects sight env :=
  fun w w' h => (hx w w' h).bind fun a _ w₁ w₁' _ _ hab h => hab ▸ hf a w₁ w₁' h

theorem map {x : Act U α} (f : α → β) (hx : x.Respects sight env) :
    (f <$> x).Respects sight env :=
  .bind hx fun a => .pure (f a)

theorem onFault {x : Act U α} (cleanup : Act U Unit) (hx : x.Respects sight env) :
    (x.onFault cleanup).Respects sight env :=
  fun w w' h => ((hx w w' h).onFault.symm.onFault.symm)

theorem fault (c : Fault) : (Act.fault c : Act U α).Respects sight env := fun _ _ _ => trivial

theorem reserve (count width : Nat) : (Act.reserve count width : Act U Unit).Respects sight env := by
  unfold Act.reserve
  split
  · exact .pure _
  · exact .fault _

theorem heap (f : Heap → α) : (Act.heap f : Act U α).Respects sight env :=
  fun _ _ h => ⟨congrArg f h.heap, h⟩

theorem settings : (Act.settings : Act U Settings).Respects sight env :=
  fun _ _ h => ⟨h.settings, h⟩

theorem updateHeap (f : Heap → α × Heap) : (Act.updateHeap f : Act U α).Respects sight env :=
  fun _ _ h => ⟨congrArg (fun heap => (f heap).1) h.heap,
    congrArg (fun heap => (f heap).2) h.heap, h.pending, h.settings, h.client⟩

theorem updateHeap? (f : Heap → Option (α × Heap)) :
    (Act.updateHeap? f : Act U (Option α)).Respects sight env := by
  rintro ⟨heap, pending, settings, client⟩ ⟨_, _, _, client'⟩ ⟨rfl, rfl, rfl, hclient⟩
  unfold Act.updateHeap?
  dsimp only
  cases f heap with
  | none => exact ⟨rfl, rfl, rfl, rfl, hclient⟩
  | some r => exact ⟨rfl, rfl, rfl, rfl, hclient⟩

theorem setPayload (h : Handle) (p : Payload) :
    (Act.setPayload h p : Act U Unit).Respects sight env :=
  .updateHeap _

theorem emit (henv : env.Respects sight) (e : Log.Event) :
    (Act.emit e : Act U Unit).Respects sight env :=
  fun _ _ h => ⟨rfl, h.heap, h.pending, h.settings, henv.observe e _ _ h.client⟩

theorem isSet : (Indicator.isSet : Act U Bool).Respects sight env :=
  fun _ _ h => ⟨congrArg Option.isSome h.pending, h⟩

theorem holds (kind : ExceptionKind) : (Indicator.holds kind : Act U Bool).Respects sight env :=
  fun _ _ h => ⟨congrArg (fun p => Option.any (·.kind == kind) p) h.pending, h⟩

theorem swap (next : Option Raised) :
    (Indicator.swap next : Act U (Option Raised)).Respects sight env :=
  fun _ _ h => ⟨h.pending, h.heap, rfl, h.settings, h.client⟩

end Act.Respects

section

variable {sight : Setoid U} {env : Env U}

theorem askPayload_respects (h : Handle) (f : Payload → α) :
    (askPayload h f : Act U (Option α)).Respects sight env :=
  .heap _

theorem typeNameOf_respects (h : Handle) : (typeNameOf h : Act U String).Respects sight env :=
  .heap _

variable (henv : env.Respects sight)

include henv

theorem clear_respects : (Indicator.clear : Act U Unit).Respects sight env := by
  refine .bind (.swap none) fun found => ?_
  cases found with
  | none => exact .pure ()
  | some e => exact .emit henv _

theorem raise_respects (kind : ExceptionKind) (message : String) :
    (raise kind message : Act U Unit).Respects sight env := by
  refine .bind (.emit henv _) fun _ => .bind (.swap _) fun previous => ?_
  cases previous with
  | none => exact .pure ()
  | some e =>
    refine .bind .settings fun settings => ?_
    split
    · exact .fault _
    · exact .emit henv _

theorem reflect_respects (f : Failure) : (f.reflect : Act U Unit).Respects sight env := by
  unfold Failure.reflect
  split
  · exact .bind (clear_respects henv) fun _ => raise_respects henv _ _
  · refine .bind .isSet fun pending => ?_
    split
    · exact .pure ()
    · exact raise_respects henv _ _

theorem traced_respects (e : Log.Event) : (traced e : Act U Unit).Respects sight env := by
  refine .bind .settings fun settings => ?_
  split
  · exact .emit henv e
  · exact .pure ()

theorem releaseAll_respects (hs : List Handle) :
    (releaseAll hs : Act U Unit).Respects sight env := by
  induction hs with
  | nil => exact .pure ()
  | cons h hs ih => exact .bind (.onFault _ (henv.release h)) fun _ => ih

theorem alloc_respects (p : Payload) : (alloc p : Act U Handle).Respects sight env :=
  .bind (.updateHeap _) fun _ => .bind (traced_respects henv _) fun _ => .pure _

theorem acquire_respects (h : Handle) : (acquire h : Act U Handle).Respects sight env := by
  refine .bind (.updateHeap? _) fun count => ?_
  cases count with
  | none => exact .fault _
  | some n => exact .bind (traced_respects henv _) fun _ => .pure _

theorem dispose_respects (p : Payload) : (dispose p : Act U Unit).Respects sight env := by
  unfold dispose
  split
  · rename_i d s
    unfold disposeState
    cases d.dealloc with
    | drop => exact .bind (.emit henv _) fun _ => releaseAll_respects henv _
    | user code => exact henv.hooks.destroy code _
  · exact releaseAll_respects henv _

theorem releaseNow_respects (h : Handle) : (releaseNow h : Act U Unit).Respects sight env := by
  refine .bind (.updateHeap? _) fun released => ?_
  match released with
  | none => exact .fault _
  | some (.alive count) => exact traced_respects henv _
  | some (.dead p) => exact .bind (traced_respects henv _) fun _ => dispose_respects henv p

theorem convertFrom_respects (units : α → List Handle) {convert : α → Act U (Option Handle)}
    (hconvert : ∀ x, (convert x).Respects sight env) (beyond : List Handle) (items : List α)
    (index : Nat) (converted : Array Handle) :
    (convertFrom units convert beyond items index converted).Respects sight env := by
  induction items generalizing index converted with
  | nil => exact .bind (.onFault _ (releaseAll_respects henv _)) fun _ => .pure _
  | cons x xs ih =>
    refine .bind (.onFault _ (hconvert x)) fun out => .bind .isSet fun pending => ?_
    split
    · exact .bind (.onFault _ (releaseAll_respects henv _)) fun _ => ih _ _
    · exact .bind (.onFault _ (releaseAll_respects henv _)) fun _ =>
        .bind (clear_respects henv) fun _ => .bind (.emit henv _) fun _ =>
          .bind (releaseAll_respects henv _) fun _ => .pure _

theorem convertAll_respects {t : NativeType} (units : t.Value → List Handle)
    {convert : t.Value → Act U (Option Handle)} (hconvert : ∀ x, (convert x).Respects sight env)
    (source : Source t) : (convertAll units convert source).Respects sight env := by
  refine .bind .isSet fun pending => ?_
  split
  · exact .bind (releaseAll_respects henv _) fun _ => .pure _
  · exact .bind (.onFault _ (.reserve _ _)) fun _ =>
      convertFrom_respects henv units hconvert _ _ 0 #[]

theorem toPeer_respects (t : NativeType) (v : t.Value) :
    (toPeer t v : Act U (Option Handle)).Respects sight env := by
  induction t with
  | i64 | i32 | f64 | bool | text | unit => exact .map _ (alloc_respects henv _)
  | usize =>
    unfold toPeer
    split
    · exact .map _ (alloc_respects henv _)
    · exact .bind (raise_respects henv _ _) fun _ => .pure none
  | object | view | callable => exact .map _ (acquire_respects henv _)
  | option t ih =>
    cases v with
    | none => exact .map _ (alloc_respects henv _)
    | some v => exact ih v
  | pair a b iha ihb =>
    refine .bind (iha v.1) fun h => ?_
    cases h with
    | none => exact .pure none
    | some h =>
      refine .bind (.onFault _ (ihb v.2)) fun k => ?_
      cases k with
      | none => exact .bind (henv.release h) fun _ => .pure none
      | some k => exact .map _ (alloc_respects henv _)
  | triple a b c iha ihb ihc =>
    refine .bind (iha v.1) fun h => ?_
    cases h with
    | none => exact .pure none
    | some h =>
      refine .bind (.onFault _ (ihb v.2.1)) fun k => ?_
      cases k with
      | none => exact .bind (henv.release h) fun _ => .pure none
      | some k =>
        refine .bind (.onFault _ (ihc v.2.2)) fun l => ?_
        cases l with
        | none => exact .bind (releaseAll_respects henv _) fun _ => .pure none
        | some l => exact .map _ (alloc_respects henv _)
  | vec t ih =>
    refine .bind (convertAll_respects henv _ ih _) fun r => ?_
    cases r with
    | ok items => exact .map _ (alloc_respects henv _)
    | error f => exact .bind (reflect_respects henv f) fun _ => .pure none

theorem convertOut_respects (code : Option CodeId) (t : NativeType) (v : t.Value) :
    (convertOut code t v : Act U (Option Handle)).Respects sight env := by
  cases code with
  | none => exact toPeer_respects henv t v
  | some code => exact henv.hooks.toPeer code t v

theorem disposeState_respects (d : Descriptor) (s : NativeState) :
    (disposeState d s : Act U Unit).Respects sight env :=
  dispose_respects henv (.native d (some s))

omit henv in
theorem putStateBack_respects (obj : Handle) (s : NativeState) :
    (putStateBack obj s : Act U Bool).Respects sight env := by
  refine .bind (.heap _) fun found => ?_
  split
  · exact .bind (.setPayload _ _) fun _ => .pure true
  · exact .pure false

theorem withState_respects (obj : Handle) (kind : StateKind) (units : α → List Handle)
    {f : kind.State → Act U (kind.State × α)} (hf : ∀ s, (f s).Respects sight env) :
    (withState obj kind units f).Respects sight env := by
  refine .bind (.heap _) fun found => ?_
  split
  · exact .bind (raise_respects henv _ _) fun _ => .pure none
  · exact .bind (raise_respects henv _ _) fun _ => .pure none
  · refine .bind (.setPayload _ _) fun _ => ?_
    split
    · refine .bind (hf _) fun r => .bind (putStateBack_respects _ _) fun back => ?_
      cases back with
      | true => exact .pure _
      | false => exact .bind (.onFault _ (disposeState_respects henv _ _)) fun _ => .pure _
    · refine .bind (.onFault _ (raise_respects henv _ _)) fun _ =>
        .bind (putStateBack_respects _ _) fun back => ?_
      cases back with
      | true => exact .pure none
      | false => exact .bind (disposeState_respects henv _ _) fun _ => .pure none
  · exact .bind (raise_respects henv _ _) fun _ => .pure none

theorem step_respects (a : Adapter) : (a.step : Act U _).Respects sight env := by
  refine .bind .isSet fun pending => ?_
  split
  · exact .pure _
  · split
    · exact .bind (.onFault _ (releaseAll_respects henv _)) fun _ =>
        .bind (.emit henv _) fun _ => .pure _
    · refine .bind (.onFault _ (convertOut_respects henv _ _ _)) fun out => .bind .isSet fun _ => ?_
      split
      · exact .bind (.onFault _ (releaseAll_respects henv _)) fun _ => .pure _
      · exact .bind (.onFault _ (.bind (releaseAll_respects henv _) fun _ =>
          .bind (clear_respects henv) fun _ => .bind (.emit henv _) fun _ =>
            raise_respects henv _ _)) fun _ => .pure _

theorem newAdapter_respects {t : NativeType} (source : Source t) (convert : Option CodeId) :
    (newAdapter source convert : Act U Handle).Respects sight env :=
  .bind (.bind (.emit henv _) fun _ => .pure _) fun _ => alloc_respects henv _

omit henv in
theorem copyAll_respects (units : α → List Handle) {copy : α → Act U Unit}
    (hcopy : ∀ v, (copy v).Respects sight env) (made : List Handle) (vs : List α) :
    (copyAll units copy made vs).Respects sight env := by
  induction vs generalizing made with
  | nil => exact .pure ()
  | cons v vs ih => exact .bind (.onFault _ (hcopy v)) fun _ => ih _

theorem copyValue_respects (t : NativeType) (v : t.Value) :
    (copyValue t v : Act U Unit).Respects sight env := by
  induction t with
  | i64 | i32 | usize | f64 | bool | text | unit => exact .pure ()
  | object | view | callable => exact .bind (acquire_respects henv _) fun _ => .pure ()
  | option t ih =>
    cases v with
    | none => exact .pure ()
    | some v => exact ih v
  | pair a b iha ihb => exact .bind (iha v.1) fun _ => .onFault _ (ihb v.2)
  | triple a b c iha ihb ihc =>
    exact .bind (iha v.1) fun _ => .bind (.onFault _ (ihb v.2.1)) fun _ => .onFault _ (ihc v.2.2)
  | vec t ih => exact copyAll_respects t.units ih [] v

theorem runIterSlot_respects (slot : IterSlot) (obj : Handle) :
    (runIterSlot slot obj : Act U (Option Handle)).Respects sight env := by
  cases slot with
  | self => exact .map _ (acquire_respects henv _)
  | fresh =>
    refine .bind (withState_respects henv _ _ _ fun c => ?_) fun copied => ?_
    · refine .bind (.onFault _ ?_) fun _ => .pure _
      exact .bind (copyAll_respects _ (copyValue_respects henv _) _ _) fun _ => .pure _
    · cases copied with
      | none => exact .pure none
      | some c => exact .map _ (newAdapter_respects henv _ _)
  | user code => exact henv.hooks.slot code obj

theorem runNextSlot_respects (slot : NextSlot) (obj : Handle) :
    (runNextSlot slot obj : Act U (Option Handle)).Respects sight env := by
  cases slot with
  | step => exact .bind (withState_respects henv _ _ _ (step_respects henv)) fun _ => .pure _
  | user code => exact henv.hooks.slot code obj

theorem getIter_respects (h : Handle) : (getIter h : Act U (Option Handle)).Respects sight env := by
  refine .bind (.heap _) fun found => ?_
  split
  · exact .bind (raise_respects henv _ _) fun _ => .pure none
  · exact .bind (acquire_respects henv _) fun _ => .map _ (alloc_respects henv _)
  · exact .bind (acquire_respects henv _) fun _ => .map _ (alloc_respects henv _)
  · exact .bind (acquire_respects henv _) fun _ => .map _ (alloc_respects henv _)
  · exact .bind (acquire_respects henv _) fun _ => .map _ (alloc_respects henv _)
  · exact .map _ (acquire_respects henv _)
  · split
    · exact runIterSlot_respects henv _ _
    · exact .bind (raise_respects henv _ _) fun _ => .pure none

omit henv in
theorem moveTo_respects (it : Handle) (position : Nat) :
    (moveTo it position : Act U Unit).Respects sight env := by
  refine .bind (.heap _) fun found => ?_
  split
  · exact .setPayload _ _
  · exact .pure ()

theorem sequenceNext_respects (it seq : Handle) (position : Nat) :
    (sequenceNext it seq position : Act U (Option Handle)).Respects sight env := by
  refine .bind (askPayload_respects _ _) fun found => ?_
  split
  · exact .bind (acquire_respects henv _) fun _ => .bind (moveTo_respects _ _) fun _ => .pure _
  · exact .bind (alloc_respects henv _) fun _ => .bind (moveTo_respects _ _) fun _ => .pure _
  · exact .pure none

theorem iterNext_respects (it : Handle) :
    (iterNext it : Act U (Option Handle)).Respects sight env := by
  refine .bind (.heap _) fun found => ?_
  split
  · exact .bind (raise_respects henv _ _) fun _ => .pure none
  · exact sequenceNext_respects henv _ _ _
  · split
    · refine .bind (runNextSlot_respects henv _ _) fun found => ?_
      split
      · refine .bind (.holds _) fun stopped => ?_
        split
        · exact .bind (clear_respects henv) fun _ => .pure _
        · exact .pure _
      · exact .pure _
    · exact .bind (raise_respects henv _ _) fun _ => .pure none

end

/-- Tied to itself, user code that sees no more than `sight` leaves nothing that does. -/
theorem tie_respects {sight : Setoid U} {observe : Log.Event → U → U} {user : Env U → Hooks U}
    (hobserve : ∀ e u u', sight.r u u' → sight.r (observe e u) (observe e u'))
    (huser : ∀ env, env.Respects sight → (user env).Respects sight) (n : Nat) :
    (Env.tie observe user n).Respects sight := by
  induction n with
  | zero =>
    exact ⟨fun _ _ _ _ => trivial, hobserve, fun _ _ _ _ _ => trivial, fun _ _ _ _ _ => trivial,
      fun _ _ _ _ _ => trivial, fun _ _ _ _ _ => trivial, fun _ _ _ _ _ _ => trivial⟩
  | succ n ih =>
    have hhooks := huser _ ih
    exact ⟨releaseNow_respects ih, hobserve, hhooks.call, hhooks.slot, hhooks.measure,
      hhooks.destroy, hhooks.toPeer⟩

end Causeway
