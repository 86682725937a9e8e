import Causeway.Proofs.Composition
import Causeway.Proofs.Settling
/-!
# Linearity

An act is linear if, from wherever a custody is sound, it takes steps of the custody only and comes
back with the calls and the dealloc slots at work that were at work before: what it lent is back or
handed over, and what it handed over is gone. Nothing is said about runs that fault.

A run comes back; what happened on the way it does not show. So a second environment is beside the
first, with user code that need not do anything but where steps of the custody have led, and the run
under it is the same. Whatever is asked of the worlds in which user code is entered can be asked by
it.

The acts the library is composed of are linear if user code is, and so everything composed of them
is. User code enters into it at two places: a dealloc slot takes one state with it, and every other
piece of it has to be linear itself.
-/
set_option autoImplicit false

namespace Causeway

open Act

variable {U α β : Type}

def Log.Event.isDrop : Log.Event → Bool
  | .stateDropped _ => true
  | _ => false

theorem Log.Event.isDrop_of_isAside {e : Log.Event} (he : e.isAside = true) :
    e.isDrop = false := by
  cases e <;> first | rfl | cases he

/-- Steps have led here, and no call that was at work at first has given its state back. -/
structure Custody.Since (C : Custodian U) (x : Custody × World U) (g : Custody) (w : World U) :
    Prop where
  sound : g.Sound C w
  path : Path C x (g, w)
  calls : x.1.lent <:+ g.lent

/-- An outcome that steps of the custody lead to if there is one, with these calls and dealloc slots
at work then; the other outcome is no other. -/
def Outcome.Leads (C : Custodian U) (g : Custody) (w : World U) (lent : List (Handle × Nat))
    (disposing : List Nat) (out out' : Outcome U α) : Prop :=
  out.Settles True fun a w' => out' = .done a w' ∧
    ∃ g', Custody.Path C (g, w) (g', w') ∧ g'.lent = lent ∧ g'.disposing = disposing

def Outcome.Linear (C : Custodian U) (g : Custody) (w : World U) (out out' : Outcome U α) : Prop :=
  out.Leads C g w g.lent g.disposing out'

structure Hooks.Linear (C : Custodian U) (x : Custody × World U) (hooks hooks' : Hooks U) :
    Prop where
  call : ∀ code hs ⦃g w⦄, g.Since C x w →
    (hooks.call code hs w).Linear C g w (hooks'.call code hs w)
  slot : ∀ code h ⦃g w⦄, g.Since C x w → (hooks.slot code h w).Linear C g w (hooks'.slot code h w)
  measure : ∀ code h ⦃g w⦄, g.Since C x w →
    (hooks.measure code h w).Linear C g w (hooks'.measure code h w)
  /-- A dealloc slot makes an end of what was handed over last. -/
  destroy : ∀ code units ⦃g w t rest⦄, g.Since C x w → C.deals w.client code →
    g.disposing = t :: rest →
    (hooks.destroy code units w).Leads C g w g.lent rest (hooks'.destroy code units w)
  toPeer : ∀ code t v ⦃g w⦄, g.Since C x w →
    (hooks.toPeer code t v w).Linear C g w (hooks'.toPeer code t v w)

structure Env.Linear (C : Custodian U) (x : Custody × World U) (env env' : Env U) : Prop where
  budget : env'.budget = env.budget
  release : ∀ h ⦃g w⦄, g.Since C x w → (env.release h w).Linear C g w (env'.release h w)
  observe : env'.observe = env.observe
  told : ∀ e c, C.told (env.observe e c) = C.told c + if e.isDrop then 1 else 0
  deals : ∀ e c code, C.deals c code → C.deals (env.observe e c) code
  hooks : env.hooks.Linear C x env'.hooks

def Act.Linear (C : Custodian U) (act : Act U α) : Prop :=
  ∀ ⦃x env env'⦄, env.Linear C x env' → ∀ ⦃g w⦄, g.Since C x w →
    (act env w).Linear C g w (act env' w)

variable {C : Custodian U} {x : Custody × World U} {g g₁ : Custody} {w w₁ : World U}
  {env env' : Env U} {L L' : List (Handle × Nat)} {D D' : List Nat} {t : Nat} {rest : List Nat}

theorem Descriptor.Known.path {d : Descriptor} (hd : d.Known C w.client)
    (m : Custody.Path C (g, w) (g₁, w₁)) : d.Known C w₁.client :=
  fun code hcode => m.deals (hd code hcode)

namespace Custody.Since

theorem refl (hg : g.Sound C w) : g.Since C (g, w) w := ⟨hg, .refl, List.suffix_rfl⟩

theorem along (hg : g.Since C x w) (m : Path C (g, w) (g₁, w₁)) (calls : x.1.lent <:+ g₁.lent) :
    g₁.Since C x w₁ :=
  ⟨m.sound hg.sound, hg.path.trans m, calls⟩

end Custody.Since

namespace Outcome

variable {out out' : Outcome U α}

theorem Leads.after (m : Custody.Path C (g, w) (g₁, w₁)) (hout : out.Leads C g₁ w₁ L D out') :
    out.Leads C g w L D out' :=
  hout.mono fun _ _ _ h => by
    obtain ⟨hsame, g', m', hlent, hdisposing⟩ := h
    exact ⟨hsame, g', m.trans m', hlent, hdisposing⟩

theorem Leads.step (hg : g.Since C x w) (s : Custody.Step C (g, w) (g₁, w₁))
    (calls : x.1.lent <:+ g₁.lent) (hout : g₁.Since C x w₁ → out.Leads C g₁ w₁ L D out') :
    out.Leads C g w L D out' :=
  .after (.single s) (hout (hg.along (.single s) calls))

theorem Leads.bind {act : Act U α} {f : α → Act U β} (hg : g.Since C x w)
    (hact : (act env w).Leads C g w g.lent D (act env' w))
    (hf : ∀ a g₁ w₁, g₁.Since C x w₁ → g₁.lent = g.lent → g₁.disposing = D →
      Custody.Path C (g, w) (g₁, w₁) → (f a env w₁).Leads C g₁ w₁ L' D' (f a env' w₁)) :
    ((act >>= f) env w).Leads C g w L' D' ((act >>= f) env' w) :=
  Settles.bind hact fun a w' _ h => by
    obtain ⟨hsame, g', m, hlent, hdisposing⟩ := h
    rw [bind_run act f env', hsame]
    exact Leads.after m (hf a g' w' (hg.along m (hlent ▸ hg.calls)) hlent hdisposing m)

/-- The second act goes on from where the first one has come back to. -/
theorem Leads.next {act : Act U α} {f : α → Act U β} (henv : env.Linear C x env')
    (hg : g.Since C x w) (hact : (act env w).Leads C g w g.lent D (act env' w))
    (hf : ∀ a, (f a).Linear C) :
    ((act >>= f) env w).Leads C g w g.lent D ((act >>= f) env' w) := by
  refine .bind hg hact fun a g₁ w₁ hg₁ hlent hdisposing _ => ?_
  rw [← hlent, ← hdisposing]
  exact hf a henv hg₁

theorem Linear.here {a : α} : (Outcome.done a w).Linear C g w (.done a w) :=
  ⟨rfl, g, .refl, rfl, rfl⟩

end Outcome

namespace Act.Linear

theorem bind {act : Act U α} {f : α → Act U β} (hact : act.Linear C) (hf : ∀ a, (f a).Linear C) :
    (act >>= f).Linear C :=
  fun _ _ _ henv _ _ hg => .next henv hg (hact henv hg) hf

/-- An act that leaves the heap alone and tells the client of no state. -/
theorem of_aside {act : Act U α} (hact : ∀ ⦃x env env'⦄, env.Linear C x env' → ∀ w,
    (act env w).Settles True fun a w' => act env' w = .done a w' ∧ w'.heap = w.heap ∧
      C.told w'.client = C.told w.client ∧
      ∀ code, C.deals w.client code → C.deals w'.client code) : act.Linear C :=
  fun _ _ _ henv _ w _ => (hact henv w).mono fun _ _ _ h =>
    ⟨h.1, _, .single (.aside h.2.1 h.2.2.1 h.2.2.2), rfl, rfl⟩

theorem reads {act : Act U α} (hact : act.Reads) : act.Linear C := by
  refine of_aside fun x env env' _ w => ?_
  obtain hr | ⟨a, hr⟩ := hact w
  · rw [hr env]
    trivial
  · rw [hr env]
    exact ⟨hr env', rfl, rfl, fun _ h => h⟩

theorem pure (a : α) : (Pure.pure a : Act U α).Linear C := reads (.pure a)

theorem emit (e : Log.Event) (he : e.isDrop = false) : (Act.emit e : Act U Unit).Linear C := by
  refine of_aside fun x env env' henv w => ⟨?_, rfl, ?_, fun code => henv.deals e w.client code⟩
  · rw [Act.emit, henv.observe]
  · change C.told (env.observe e w.client) = C.told w.client
    rw [henv.told, he]
    rfl

theorem onFault {act : Act U α} {cleanup : Act U Unit} (hact : act.Linear C) :
    (act.onFault cleanup).Linear C := by
  intro x env env' henv g w hg
  have hout := hact henv hg
  unfold Act.onFault
  cases hr : act env w with
  | done a w' =>
    rw [hr] at hout
    rw [hout.1]
    exact ⟨rfl, hout.2⟩
  | fault c w' =>
    dsimp only
    cases cleanup env w' <;> trivial
  | unfinished => trivial

theorem loop {body : β → Act U (β ⊕ α)} (hbody : ∀ b, (body b).Linear C) (b : β) :
    (Act.loop body b).Linear C := by
  intro x env env' henv g w hg
  unfold Act.loop
  rw [henv.budget]
  -- the rounds that are left
  generalize env.budget = n
  induction n generalizing b g w with
  | zero => trivial
  | succ n ih =>
    have hout := hbody b henv hg
    unfold Act.loopFor
    cases hr : body b env w with
    | done r w' =>
      rw [hr] at hout
      obtain ⟨hsame, g', m, hlent, hdisposing⟩ := hout
      rw [hsame]
      cases r with
      | inl b' =>
        have hrest := (ih b' (hg.along m (hlent ▸ hg.calls))).after m
        rwa [hlent, hdisposing] at hrest
      | inr a => exact ⟨rfl, g', m, hlent, hdisposing⟩
    | fault c w' => trivial
    | unfinished => trivial

end Act.Linear

theorem swap_linear (next : Option Raised) :
    (Indicator.swap next : Act U (Option Raised)).Linear C :=
  .of_aside fun _ _ _ _ _ => ⟨rfl, rfl, rfl, fun _ h => h⟩

theorem raise_linear (kind : ExceptionKind) (message : String) :
    (raise kind message : Act U Unit).Linear C := by
  refine .bind (.emit _ rfl) fun _ => .bind (swap_linear _) fun previous => ?_
  cases previous with
  | none => exact .pure ()
  | some previous =>
    refine .bind (.reads .settings) fun settings => ?_
    split
    · exact fun _ _ _ _ _ _ _ => trivial
    · exact .emit _ rfl

theorem traced_linear (e : Log.Event) (he : e.isDrop = false) :
    (traced e : Act U Unit).Linear C := by
  refine .bind (.reads .settings) fun settings => ?_
  split
  · exact .emit e he
  · exact .pure ()

theorem release_linear (h : Handle) : (release h : Act U Unit).Linear C :=
  fun _ _ _ henv _ _ hg => henv.release h hg

theorem releaseAll_linear (hs : List Handle) : (releaseAll hs : Act U Unit).Linear C := by
  induction hs with
  | nil => exact .pure ()
  | cons h hs ih => exact .bind (.onFault (release_linear h)) fun _ => ih

/-- A new object comes in by the step that fits its payload. -/
theorem alloc_leads (henv : env.Linear C x env') (hg : g.Since C x w) {p : Payload}
    (s : Custody.Step C (g, w) (g₁, { w with heap := (w.heap.insert p).2 }))
    (same : g₁.lent = g.lent) :
    (alloc p env w).Leads C g w g₁.lent g₁.disposing (alloc p env' w) := by
  refine .step hg s (same ▸ hg.calls) fun hg₁ => ?_
  have htraced : (do traced (.allocated (w.heap.insert p).1 p.typeName)
                     pure (w.heap.insert p).1 : Act U Handle).Linear C :=
    .bind (traced_linear _ rfl) fun _ => .pure _
  exact htraced henv hg₁

theorem instantiate_linear {d : Descriptor} (henv : env.Linear C x env') (hg : g.Since C x w)
    (known : d.Known C w.client) (s : NativeState) :
    (instantiate d s env w).Linear C g w (instantiate d s env' w) := by
  have hout := alloc_leads henv hg (.instantiate g w s known) rfl
  exact hout

theorem acquire_linear (h : Handle) : (acquire h : Act U Handle).Linear C := by
  intro x env env' henv g w hg
  cases hi : w.heap.increment? h with
  | none =>
    have hr : acquire h env w = .fault (.acquireReleased h) w := by
      simp [acquire, bind_run, updateHeap?, hi, Act.fault]
    rw [hr]
    trivial
  | some r =>
    obtain ⟨n, heap⟩ := r
    have hr : ∀ env : Env U, acquire h env w =
        (do traced (.acquired h n); pure h : Act U Handle) env { w with heap } := fun env => by
      simp [acquire, bind_run, updateHeap?, hi]
    rw [hr, hr]
    refine .step hg (.increment hi) hg.calls fun hg₁ => ?_
    exact Act.Linear.bind (traced_linear _ rfl) (fun _ => .pure h) henv hg₁

theorem alloc_linear {p : Payload} (plain : p.hasState? = none) :
    (alloc p : Act U Handle).Linear C :=
  fun _ _ _ henv g w hg => alloc_leads henv hg (.insert g w plain) rfl

theorem moveTo_linear (it : Handle) (position : Nat) :
    (moveTo it position : Act U Unit).Linear C := by
  intro x env env' henv g w hg
  unfold moveTo
  rw [bind_run, bind_run]
  simp only [Act.heap]
  cases found : w.heap.payload? it with
  | none => exact Outcome.Linear.here (a := ())
  | some p =>
    cases p with
    | iterator seq n =>
      exact .step hg (.change found rfl rfl) hg.calls fun _ => Outcome.Linear.here (a := ())
    | _ => exact Outcome.Linear.here (a := ())

theorem nextItem_linear (it : Handle) : (nextItem it : Act U (Option Handle)).Linear C := by
  refine .bind (.reads (.heap _)) fun p => ?_
  split
  · refine .bind (.reads (askPayload_reads _ _)) fun step => ?_
    split
    · exact .bind (acquire_linear _) fun _ => .bind (moveTo_linear it _) fun _ => .pure _
    · exact .bind (alloc_linear rfl) fun _ => .bind (moveTo_linear it _) fun _ => .pure _
    · exact .pure none
  · exact .pure none

/-- The client is told of the end of what was handed over last. -/
theorem dropped_leads (henv : env.Linear C x env') (latest : g.disposing = t :: rest)
    (path : String) :
    (Act.emit (.stateDropped path) env w).Leads C g w g.lent rest
      (Act.emit (.stateDropped path) env' w) := by
  have hreport : Custody.Step C (g, w) ({ g with disposing := rest },
      { w with client := env.observe (.stateDropped path) w.client }) :=
    .report latest rfl (henv.told _ _) fun code => henv.deals _ _ code
  simp only [Act.emit, henv.observe]
  exact ⟨rfl, _, .single hreport, rfl, rfl⟩

theorem disposeState_leads (henv : env.Linear C x env') (hg : g.Since C x w) {d : Descriptor}
    (known : d.Known C w.client) (latest : g.disposing = t :: rest) (s : NativeState) :
    (disposeState d s env w).Leads C g w g.lent rest (disposeState d s env' w) := by
  unfold disposeState
  cases hd : d.dealloc with
  | drop => exact .next henv hg (dropped_leads henv latest _) fun _ => releaseAll_linear s.units
  | user code => exact henv.hooks.destroy code s.units hg (known code hd) latest

theorem releaseNow_linear (h : Handle) : (releaseNow h : Act U Unit).Linear C := by
  intro x env env' henv g w hg
  cases hd : w.heap.decrement? h with
  | none =>
    have hr : releaseNow h env w = .fault (.doubleRelease h) w := by
      simp [releaseNow, bind_run, updateHeap?, hd, Act.fault]
    rw [hr]
    trivial
  | some r =>
    obtain ⟨r, heap⟩ := r
    cases r with
    | alive n =>
      have hr : ∀ env : Env U, releaseNow h env w =
          traced (.released h n) env { w with heap } := fun env => by
        simp [releaseNow, bind_run, updateHeap?, hd]
      rw [hr, hr]
      exact .step hg (.decrement hd) hg.calls fun hg₁ => traced_linear _ rfl henv hg₁
    | dead p =>
      have hr : ∀ env : Env U, releaseNow h env w =
          (do traced (.deallocated h p.typeName); dispose p : Act U Unit) env { w with heap } :=
        fun env => by simp [releaseNow, bind_run, updateHeap?, hd]
      rw [hr, hr]
      by_cases hp : p.hasState? = some true
      · obtain ⟨d, s, rfl⟩ := Payload.hasState?_eq_true.1 hp
        have found := (Heap.decrement?_dead_payload? hd).1
        obtain ⟨t, ht⟩ := hg.sound.exists_object (Heap.hasState?_of_payload? found)
        refine .step hg (.retire hd ht) hg.calls fun hg₁ => ?_
        refine .bind hg₁ (traced_linear _ rfl henv hg₁) fun _ g₂ w₂ hg₂ hlent hdisposing m => ?_
        have known : d.Known C w₂.client :=
          Descriptor.Known.path (w := { w with heap }) (hg.sound.known h d (some s) found) m
        have hout := disposeState_leads henv hg₂ known hdisposing s
        rwa [hlent] at hout
      · have hdispose : (dispose p : Act U Unit) = releaseAll p.units := by
          cases p with
          | native d s => cases s with
            | none => rfl
            | some s => exact absurd rfl hp
          | _ => rfl
        rw [hdispose]
        refine .step hg (.vanish hd hp) hg.calls fun hg₁ => ?_
        exact Act.Linear.bind (traced_linear _ rfl) (fun _ => releaseAll_linear p.units) henv hg₁

theorem holding_leads {units : List Handle} {act : Act U α}
    (hact : (act env w).Leads C g w L D (act env' w)) :
    (holding units act env w).Leads C g w L D (holding units act env' w) :=
  (holding_settles units hact).mono fun _ _ _ h => ⟨Act.onFault_done h.2.1, h.2.2⟩

/-- The latest call gives its state back to the object, or else hands it over by `finish`. -/
theorem putStateBack_leads (henv : env.Linear C x env') (hg : g.Since C x w) {h : Handle}
    (latest : g.lent = (h, t) :: L) (outer : x.1.lent <:+ L) (s : NativeState)
    {finish : Act U Unit}
    (hfinish : ∀ g₁ : Custody, g₁.Since C x w → g₁.disposing = t :: g.disposing →
      (finish env w).Leads C g₁ w g₁.lent g.disposing (finish env' w)) (a : α) :
    ((do
      if !(← putStateBack h s) then finish
      pure a : Act U α) env w).Leads C g w L g.disposing
      ((do
        if !(← putStateBack h s) then finish
        pure a : Act U α) env' w) := by
  have horphan : w.heap.hasState? h ≠ some false →
      ((finish >>= fun _ => pure a) env w).Leads C g w L g.disposing
        ((finish >>= fun _ => pure a) env' w) := by
    intro hgone
    refine .step hg (.orphan latest hgone) outer fun hg₁ => ?_
    exact .next henv hg₁ (hfinish _ hg₁ rfl) fun _ => .pure a
  rw [bind_run, bind_run]
  unfold putStateBack
  rw [bind_run, bind_run]
  simp only [Act.heap]
  cases found : w.heap.payload? h with
  | none => exact horphan (by simp [Heap.hasState?, found])
  | some p =>
    by_cases hp : p.hasState? = some false
    · obtain ⟨d, rfl⟩ := Payload.hasState?_eq_false.1 hp
      refine .step hg (.back latest found s) outer fun hg₁ => ?_
      exact Outcome.Linear.here (a := a)
    · have hgone := horphan (by rwa [Heap.hasState?_of_payload? found])
      cases p with
      | native d o => cases o with
        | none => exact absurd rfl hp
        | some o => exact hgone
      | _ => exact hgone

theorem withState_linear (obj : Handle) (kind : StateKind) (units : α → List Handle)
    {f : kind.State → Act U (kind.State × α)} (hf : ∀ s, (f s).Linear C) :
    (withState obj kind units f).Linear C := by
  have hrefuse : ∀ kind message, (do raise kind message; pure none : Act U (Option α)).Linear C :=
    fun kind message => .bind (raise_linear kind message) fun _ => .pure none
  intro x env env' henv g w hg
  unfold withState
  rw [bind_run, bind_run]
  simp only [Act.heap]
  cases found : w.heap.payload? obj with
  | none => exact hrefuse _ _ henv hg
  | some p =>
    cases p with
    | native d o =>
      cases o with
      | none => exact hrefuse _ _ henv hg
      | some s =>
        obtain ⟨t, ht⟩ := hg.sound.exists_object (Heap.hasState?_of_payload? found)
        have hlend : Custody.Step C (g, w) _ := .lend found ht
        have known := hg.sound.known obj d (some s) found
        refine .step hg hlend (hg.calls.trans (List.suffix_cons ..)) fun hg₁ => ?_
        dsimp only
        rw [bind_run, bind_run]
        simp only [Act.setPayload, updateHeap]
        cases hs : s.get? kind with
        | none =>
          refine .bind hg₁ (holding_leads (raise_linear _ _ henv hg₁))
            fun _ g₂ w₂ hg₂ hlent hdisposing m => ?_
          rw [← hdisposing]
          exact putStateBack_leads henv hg₂ hlent hg.calls s (fun g₃ hg₃ h₃ =>
            disposeState_leads henv hg₃ (known.path (g := g) (m.head hlend)) h₃ s) none
        | some typed =>
          refine .bind hg₁ (hf typed henv hg₁) fun r g₂ w₂ hg₂ hlent hdisposing m => ?_
          rw [← hdisposing]
          exact putStateBack_leads henv hg₂ hlent hg.calls _ (fun g₃ hg₃ h₃ =>
            holding_leads (disposeState_leads henv hg₃ (known.path (g := g) (m.head hlend)) h₃ _))
            (some r.2)
    | _ => exact hrefuse _ _ henv hg

/-- What is composed of acts of the library and of linear acts of the client is linear. -/
theorem Act.Composed.linear {own : (α : Type) → Act U α → Prop}
    (hown : ∀ (α : Type) (act : Act U α), own α act → act.Linear C) {act : Act U α}
    (h : Composed own act) : act.Linear C := by
  induction h with
  | own h => exact hown _ _ h
  | reads h => exact .reads h
  | bind _ _ ihx ihf => exact .bind ihx ihf
  | fault c => exact fun _ _ _ _ _ _ _ => trivial
  | onFault _ _ ihact _ => exact .onFault ihact
  | loop _ b ih => exact .loop ih b
  | emit e aside => exact .emit e (Log.Event.isDrop_of_isAside aside)
  | swap next => exact swap_linear next
  | acquire h => exact acquire_linear h
  | release h => exact release_linear h
  | alloc plain => exact alloc_linear plain
  | instantiate s drop =>
    refine fun _ _ _ henv g w hg => instantiate_linear henv hg (fun code hcode => ?_) s
    rw [drop] at hcode
    cases hcode
  | revise next _ agree ih =>
    intro x env env' henv g w hg
    obtain hr | ⟨h, p, p', found, grows, hr⟩ := agree w
    · rw [hr, hr]
      exact ih w henv hg
    · obtain ⟨plain, plain'⟩ := grows.plain
      rw [hr, hr]
      exact .step hg (.change found plain plain') hg.calls fun hg₁ => ih w henv hg₁
  | nextItem it => exact nextItem_linear it
  | withState obj kind units _ _ ih => exact withState_linear obj kind units ih
  | call code hs => exact fun _ _ _ henv _ _ hg => henv.hooks.call code hs hg
  | slot code h => exact fun _ _ _ henv _ _ hg => henv.hooks.slot code h hg
  | measure code h => exact fun _ _ _ henv _ _ hg => henv.hooks.measure code h hg
  | toPeer code t v => exact fun _ _ _ henv _ _ hg => henv.hooks.toPeer code t v hg

open Classical in
/-- User code that does not come back if it is entered where `P` fails. -/
noncomputable def Hooks.onlyAt (P : World U → Prop) (hooks : Hooks U) : Hooks U where
  call code hs w := if P w then hooks.call code hs w else .unfinished
  slot code h w := if P w then hooks.slot code h w else .unfinished
  measure code h w := if P w then hooks.measure code h w else .unfinished
  destroy code hs w := if P w then hooks.destroy code hs w else .unfinished
  toPeer code t v w := if P w then hooks.toPeer code t v w else .unfinished

theorem Hooks.Linear.onlyAt {P : World U → Prop} {hooks hooks' : Hooks U}
    (h : hooks.Linear C x hooks') (hP : ∀ (g : Custody) w, g.Since C x w → P w) :
    hooks.Linear C x (hooks'.onlyAt P) where
  call code hs g w hg := by
    simp only [Hooks.onlyAt, if_pos (hP g w hg)]
    exact h.call code hs hg
  slot code obj g w hg := by
    simp only [Hooks.onlyAt, if_pos (hP g w hg)]
    exact h.slot code obj hg
  measure code obj g w hg := by
    simp only [Hooks.onlyAt, if_pos (hP g w hg)]
    exact h.measure code obj hg
  destroy code units g w _ _ hg deals latest := by
    simp only [Hooks.onlyAt, if_pos (hP g w hg)]
    exact h.destroy code units hg deals latest
  toPeer code t v g w hg := by
    simp only [Hooks.onlyAt, if_pos (hP g w hg)]
    exact h.toPeer code t v hg

/-- However deep user code nests, the environments it is tied into are linear. -/
theorem tie_linear {observe : Log.Event → U → U} {user user' : Env U → Hooks U}
    (htold : ∀ e c, C.told (observe e c) = C.told c + if e.isDrop then 1 else 0)
    (hdeals : ∀ e c code, C.deals c code → C.deals (observe e c) code)
    (huser : ∀ env env', env.Linear C x env' → (user env).Linear C x (user' env')) (n : Nat) :
    (Env.tie observe user n).Linear C x (Env.tie observe user' n) := by
  induction n with
  | zero =>
    exact ⟨rfl, fun _ _ _ _ => trivial, rfl, htold, hdeals, fun _ _ _ _ _ => trivial,
      fun _ _ _ _ _ => trivial, fun _ _ _ _ _ => trivial, fun _ _ _ _ _ _ _ _ _ => trivial,
      fun _ _ _ _ _ _ => trivial⟩
  | succ n ih =>
    have hhooks := huser _ _ ih
    exact ⟨rfl, fun h _ _ hg => releaseNow_linear h ih hg, rfl, htold, hdeals, hhooks.call,
      hhooks.slot, hhooks.measure, hhooks.destroy, hhooks.toPeer⟩

end Causeway
