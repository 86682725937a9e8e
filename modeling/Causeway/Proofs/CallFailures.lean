import Causeway.Proofs.CallExits
import Causeway.Proofs.Overlay
/-!
# Calls that fail

A call gives its argument container back after the function has failed and before it answers, with
the error of the function in the indicator. What dies with the container takes its dealloc slots
along. Those are user code, and they share the indicator; nothing else on the way touches it. So the
error is still pending when the call answers, or there is a slot that found it and left something
else.
-/
set_option autoImplicit false

namespace Causeway

open Act

variable {U α : Type} {O : Ownership U} {E : Multiset Handle}

section

variable {observe : Log.Event → U → U} {user : Env U → Hooks U}

variable (observe user) in
/-- A dealloc slot that runs while units are given back from `w` on, in order: the world in which it
is entered and the one it leaves. What the slot gives back in turn is its own doing. -/
inductive Enters : (level : Nat) → List Handle → (w entered left : World U) → Prop where
  | slot {n : Nat} {h : Handle} {hs : List Handle} {d : Descriptor} {s : NativeState}
      {code : CodeId} {heap : Heap} {w w₁ w₂ : World U} (dealloc : d.dealloc = .user code)
      (dies : w.heap.decrement? h = some (.dead (.native d (some s)), heap))
      (noted : Noted (.tie observe user (n + 1)) { w with heap } w₁)
      (ran : (user (.tie observe user n)).destroy code s.units w₁ = .done () w₂) :
      Enters (n + 2) (h :: hs) w w₁ w₂
  | inside {n : Nat} {h : Handle} {hs : List Handle} {p : Payload} {heap : Heap}
      {w w₀ w₁ w₂ : World U} (drops : p.Drops)
      (dies : w.heap.decrement? h = some (.dead p, heap))
      (noted : Noted (.tie observe user n) { w with heap } w₀)
      (entered : Enters n p.units w₀ w₁ w₂) : Enters (n + 1) (h :: hs) w w₁ w₂
  | later {n : Nat} {h : Handle} {hs : List Handle} {w w₀ w₁ w₂ : World U}
      (gone : release h (.tie observe user n) w = .done () w₀) (entered : Enters n hs w₀ w₁ w₂) :
      Enters n (h :: hs) w w₁ w₂

variable (observe user) in
/-- A dealloc slot found the indicator as it was in `w`, and left it otherwise. -/
def Meddles (level : Nat) (hs : List Handle) (w : World U) : Prop :=
  ∃ w₁ w₂, Enters observe user level hs w w₁ w₂ ∧ w₁.pending = w.pending ∧ w₂.pending ≠ w.pending

variable {n : Nat} {h : Handle} {hs : List Handle} {w w' : World U}

/-- What units given back in order do to the indicator, their dealloc slots do. -/
theorem releaseAll_meddles
    (hstep : ∀ h hs w w', release h (.tie observe user n) w = .done () w' →
      w'.pending = w.pending ∨ Meddles observe user n (h :: hs) w)
    (hrun : releaseAll hs (.tie observe user n) w = .done () w') :
    w'.pending = w.pending ∨ Meddles observe user n hs w := by
  induction hs generalizing w with
  | nil =>
    obtain ⟨-, rfl⟩ := hrun
    exact .inl rfl
  | cons h hs ih =>
    obtain ⟨_, w₀, hfirst, hrest⟩ := bind_eq_done.1 hrun
    have gone : release h (.tie observe user n) w = .done () w₀ := holding_eq_done hfirst
    obtain hkept | hmeddles := hstep h hs w w₀ gone
    · obtain hkept' | ⟨w₁, w₂, entered, hfound, hleft⟩ := ih hrest
      · exact .inl (hkept'.trans hkept)
      · exact .inr ⟨w₁, w₂, .later gone entered, hfound.trans hkept, hkept ▸ hleft⟩
    · exact .inr hmeddles

theorem exists_slot_of_not_drops {p : Payload} (hp : ¬p.Drops) :
    ∃ d s code, p = .native d (some s) ∧ d.dealloc = .user code := by
  simp only [Payload.Drops, not_forall] at hp
  obtain ⟨d, s, rfl, hdealloc⟩ := hp
  cases hcode : d.dealloc with
  | drop => exact absurd hcode hdealloc
  | user code => exact ⟨d, s, code, rfl, hcode⟩

theorem releaseNow_alive (env : Env U) {m : Nat} {heap : Heap}
    (hd : w.heap.decrement? h = some (.alive m, heap)) :
    ∃ w₁, Noted env { w with heap } w₁ ∧ releaseNow h env w = .done () w₁ := by
  obtain ⟨w₁, htraced, hnoted⟩ := traced_run (.released h m) env { w with heap }
  exact ⟨w₁, hnoted, by simp only [releaseNow, bind_run, updateHeap?, hd, htraced]⟩

theorem releaseNow_dead (env : Env U) {p : Payload} {heap : Heap}
    (hd : w.heap.decrement? h = some (.dead p, heap)) :
    ∃ w₁, Noted env { w with heap } w₁ ∧ releaseNow h env w = dispose p env w₁ := by
  obtain ⟨w₁, htraced, hnoted⟩ := traced_run (.deallocated h p.typeName) env { w with heap }
  exact ⟨w₁, hnoted, by simp only [releaseNow, bind_run, updateHeap?, hd, htraced]⟩

/-- What giving a unit back does to the indicator, dealloc slots do. -/
theorem release_meddles (n : Nat) (h : Handle) (hs : List Handle) (w w' : World U)
    (hrun : release h (.tie observe user n) w = .done () w') :
    w'.pending = w.pending ∨ Meddles observe user n (h :: hs) w := by
  induction n generalizing h hs w w' with
  | zero => cases hrun
  | succ n ih =>
    change releaseNow h (.tie observe user n) w = .done () w' at hrun
    cases hd : w.heap.decrement? h with
    | none => simp [releaseNow, bind_run, updateHeap?, hd, Act.fault] at hrun
    | some r =>
      obtain ⟨_ | p, heap⟩ := r
      · obtain ⟨w₁, hnoted, halive⟩ := releaseNow_alive (.tie observe user n) hd
        rw [halive] at hrun
        cases hrun
        exact .inl hnoted.kept.1
      · obtain ⟨w₁, hnoted, hdead⟩ := releaseNow_dead (.tie observe user n) hd
        rw [hdead] at hrun
        by_cases hdrops : p.Drops
        · -- the units of the payload go, one level further down
          obtain ⟨w₀, hdropped, hdispose⟩ := dispose_drops hdrops (.tie observe user n) w₁
          rw [hdispose] at hrun
          have hnoted₀ := hnoted.trans hdropped
          have hkept : w₀.pending = w.pending := hnoted₀.kept.1
          obtain hkept' | ⟨w₂, w₃, entered, hfound, hleft⟩ := releaseAll_meddles ih hrun
          · exact .inl (hkept'.trans hkept)
          · refine .inr ⟨w₂, w₃, ?_, hfound.trans hkept, hkept ▸ hleft⟩
            exact .inside hdrops hd hnoted₀ entered
        · obtain ⟨d, s, code, rfl, hcode⟩ := exists_slot_of_not_drops hdrops
          simp only [dispose, disposeState, hcode] at hrun
          cases n with
          | zero => cases hrun
          | succ n =>
            by_cases hleft : w'.pending = w.pending
            · exact .inl hleft
            · exact .inr ⟨w₁, w', .slot hcode hd hnoted hrun, hnoted.kept.1, hleft⟩

theorem Enters.ran {w₁ w₂ : World U} (hentered : Enters observe user n hs w w₁ w₂) :
    ∃ m code units, (user (.tie observe user m)).destroy code units w₁ = .done () w₂ := by
  induction hentered with
  | slot _ _ _ ran => exact ⟨_, _, _, ran⟩
  | inside _ _ _ _ ih => exact ih
  | later _ _ ih => exact ih

/-- Slots that put back what they find do not meddle, whatever they raise and clear meanwhile. -/
theorem not_meddles
    (hkeeps : ∀ env code units w₁ w₂, (user env).destroy code units w₁ = .done () w₂ →
      w₂.pending = w₁.pending) :
    ¬Meddles observe user n hs w := by
  rintro ⟨w₁, w₂, hentered, hfound, hleft⟩
  obtain ⟨m, code, units, ran⟩ := hentered.ran
  exact hleft ((hkeeps _ _ _ _ _ ran).trans hfound)

end

namespace Callable

/-- A call begun with the indicator clear, up to where its container is given back: all arguments
convert, and the function gives no result, with `e` pending. -/
inductive Fails (env : Env U) (target : Handle) (arguments : List (Act U (Option Handle)))
    (units : List Handle) (e : Raised) (container : Handle) (w w' : World U) : Prop where
  | intro {w₁ w₂ w₃ : World U} (clear : w.pending = none)
      (made : newArguments arguments.length env w = .done container w₁)
      (converted : marshal container arguments 0 env w₁ = .done none w₂)
      (dropped : releaseAll units env w₂ = .done () w₃)
      (failed : invoke target container env w₃ = .done none w') (pending : w'.pending = some e)

variable {env : Env U} {target container : Handle} {arguments : List (Act U (Option Handle))}
  {units : List Handle} {returns : Returns U α} {e : Raised} {w w' : World U}

theorem Fails.pending (hf : Fails env target arguments units e container w w') :
    w'.pending = some e := by
  cases hf
  assumption

/-- Nothing but the container is left to be given back, and its release decides. -/
theorem Fails.call_run (hf : Fails env target arguments units e container w w') :
    call target arguments units returns env w =
      (do release container; pure (.error .alreadyRaised) : Act U (Except Failure α)) env w' := by
  obtain @⟨w₁, w₂, w₃, clear, made, converted, dropped, failed, pending⟩ := hf
  have hmarshal : holding (container :: units) (marshal container arguments 0) env w₁ =
      .done none w₂ := onFault_done converted
  have hdrop : holding [container] (releaseAll units) env w₂ = .done () w₃ := onFault_done dropped
  have hinvoke : holding [container] (invoke target container) env w₃ = .done none w' :=
    onFault_done failed
  unfold call
  rw [bind_run]
  simp only [Indicator.isSet, clear, Option.isSome_none, Bool.false_eq_true, if_false]
  simp only [bind_run, made, hmarshal, hdrop, hinvoke]
  -- with nothing to give back should it fault, the release runs as it is
  have hheld : holding ([] : List Handle) (release container) env w' = release container env w' := by
    unfold holding Act.onFault
    cases release container env w' <;> rfl
  rw [Option.toList_none, hheld]

theorem Fails.exact (henv : env.Lawful O)
    (harguments : ∀ a ∈ arguments, Conserves O .strict 0 a fun o => ↑o.toList)
    (hf : Fails env target arguments units e container w w') (hx : Exact O (↑units + E) w) :
    Exact O ({container} + E) w' := by
  obtain @⟨w₁, w₂, w₃, clear, made, converted, dropped, failed, pending⟩ := hf
  have hmade := newArguments_conserves (O := O) (d := .strict) arguments.length env henv w hx.idle
  rw [made] at hmade
  have hx₁ := hmade.1.exact_join hx
  have hconverted := marshal_conserves container harguments 0 env henv w₁ hx₁.idle
  rw [converted] at hconverted
  have hx₂ : Exact O (↑units + ({container} + E)) w₂ := by
    rw [add_left_comm]
    exact hconverted.1.exact_aside hx₁
  have hdropped := releaseAll_conserves (O := O) (d := .strict) units env henv w₂
    (hx₂.ready.of_frame _)
  rw [dropped] at hdropped
  have hx₃ := hdropped.1.exact_spend hx₂
  have hfailed := invoke_conserves (O := O) (d := .strict) target container env henv w₃ hx₃.idle
  rw [failed] at hfailed
  exact hfailed.1.exact_aside hx₃

/-- A call whose function fails comes back if dealloc slots do, and gives everything back. The error
is pending then, whatever dies with the container, unless a dealloc slot that this takes along finds
it and leaves something else. -/
theorem failed_call_pending {observe : Log.Event → U → U} {user : Env U → Hooks U} {n : Nat}
    (returns : Returns U α) (henv : ∀ n, (Env.tie observe user n).Lawful O)
    (hdestroy : ∀ env n, env.Lawful O → env.Frees O n → ∀ code (hs : List Handle) w,
      Ready O .strict ↑hs w → w.heap.stats.live ≤ n → ((user env).destroy code hs w).Settles False
        fun _ w' => w'.heap.stats.live ≤ w.heap.stats.live)
    (harguments : ∀ a ∈ arguments, Conserves O .strict 0 a fun o => ↑o.toList)
    (hx : Exact O (↑units + E) w)
    (hfails : Fails (.tie observe user n) target arguments units e container w w')
    (hlevels : 2 * w'.heap.stats.live < n) :
    ∃ w₁, call target arguments units returns (.tie observe user n) w =
        .done (.error .alreadyRaised) w₁ ∧
      Exact O E w₁ ∧ (¬Meddles observe user n [container] w' → w₁.pending = some e) := by
  have hx' := hfails.exact (henv n) harguments hx
  have hready : Ready O .strict {container} w' := hx'.ready.of_frame E
  have hback := (tie_frees henv hdestroy hlevels container w' hready le_rfl).conserved
    ((henv n).release .strict container w' hready)
  obtain ⟨_, w₁, hrun, -, hpath⟩ := hback.exists_done
  have hcall : call target arguments units returns (Env.tie observe user n) w = _ := hfails.call_run
  rw [bind_run, show release container (Env.tie observe user n) w' = _ from hrun] at hcall
  refine ⟨w₁, hcall, hpath.exact_spend hx', fun hleaves => ?_⟩
  have hkept := (release_meddles n container [] w' w₁ hrun).resolve_right hleaves
  exact hkept.trans hfails.pending

def failingHooks (destroy : List Handle → Act Unit Unit) (env : Env Unit) : Hooks Unit where
  call := fun _ _ => (do raise .valueError "boom"; pure none : Act Unit (Option Handle)) env
  slot := fun _ _ w => .done none w
  measure := fun _ _ w => .done none w
  destroy := fun _ hs => destroy hs env
  toPeer := fun _ _ _ w => .done none w

def failing (destroy : List Handle → Act Unit Unit) : Env Unit :=
  .tie (fun _ u => u) (failingHooks destroy) 8

def failingObject : Payload :=
  .native ⟨"failing", "", .user 0, none, none, none⟩ (some (.scripted []))

def failingWorld : World Unit :=
  { echoWorld with heap := (echoWorld.heap.insert failingObject).2 }

abbrev failingArguments : List (Act Unit (Option Handle)) := [some <$> acquire ⟨1, 0⟩]

theorem failingWorld_exact : Exact ownerless (↑[(⟨1, 0⟩ : Handle)] + {⟨0, 0⟩}) failingWorld :=
  echoWorld_exact.insert_leaf failingObject rfl

theorem failing_fails (destroy : List Handle → Act Unit Unit) :
    ∃ w', Fails (failing destroy) ⟨0, 0⟩ failingArguments [⟨1, 0⟩] ⟨.valueError, "boom"⟩ ⟨2, 0⟩
      failingWorld w' ∧ w'.heap.stats.live = 3 :=
  ⟨_, .intro rfl rfl rfl rfl rfl rfl, rfl⟩

theorem failing_lawful {destroy : List Handle → Act Unit Unit}
    (hdestroy : ∀ d (hs : List Handle), Conserves ownerless d ↑hs (destroy hs) fun _ => 0) (n : Nat) :
    (Env.tie (fun _ u => u) (failingHooks destroy) n).Lawful ownerless := by
  refine tie_lawful (fun _ _ => rfl) (fun _ _ => rfl) (fun _ _ h => h) (fun env henv => ?_) n
  have hcall (d : Discipline) : Conserves ownerless d 0
      (do raise .valueError "boom"; pure none : Act Unit (Option Handle)) fun o => ↑o.toList :=
    (raise_conserves _ _).next fun _ => .pure rfl
  exact {
    call := fun d _ _ w hw => hcall d env henv w hw
    slot := fun _ _ _ _ _ => ⟨.refl, rfl⟩
    measure := fun _ _ _ _ _ => ⟨.refl, rfl⟩
    destroy := fun d _ hs w hw => hdestroy d hs env henv w hw
    toPeer := fun _ _ _ _ _ _ => ⟨.refl, rfl⟩ }

/-- A slot that raises and clears, but puts back what it found. -/
def putAside (hs : List Handle) : Act Unit Unit := do
  let found ← Indicator.take
  raise .runtimeError "late"
  releaseAll hs
  Indicator.clear
  Indicator.putBack found

theorem putAside_conserves (d : Discipline) (hs : List Handle) :
    Conserves ownerless d ↑hs (putAside hs) fun _ => 0 := by
  refine .of_eq ?_ (zero_add _) fun _ => rfl
  refine .aside (swap_conserves none) fun found => .aside (raise_conserves _ _) fun _ => ?_
  exact .next (releaseAll_conserves hs) fun _ => .aside clear_conserves fun _ => putBack_conserves _

theorem putAside_keeps {env : Env Unit} {hs : List Handle} {w w' : World Unit}
    (hrun : putAside hs env w = .done () w') : w'.pending = w.pending := by
  obtain ⟨found, w₁, ⟨⟩, hrest⟩ := bind_eq_done.1 hrun
  obtain ⟨_, w₂, -, hrest⟩ := bind_eq_done.1 hrest
  obtain ⟨_, w₃, -, hrest⟩ := bind_eq_done.1 hrest
  obtain ⟨_, w₄, hcleared, hback⟩ := bind_eq_done.1 hrest
  obtain ⟨w₅, hrun₅, hnone, -⟩ := clear_run env w₃
  obtain ⟨-, rfl⟩ := Outcome.done.inj (hrun₅.symm.trans hcleared)
  obtain ⟨w₆, hrun₆, hpending, -⟩ := putBack_run w.pending env hnone
  obtain ⟨-, rfl⟩ := Outcome.done.inj (hrun₆.symm.trans hback)
  exact hpending

/-- Who owns nothing is ready wherever the heap is the same. -/
theorem ownerless_ready {H : Multiset Handle} {w w₁ : World Unit}
    (ready : Ready ownerless .strict H w) (hheap : w₁.heap = w.heap) :
    Ready ownerless .strict H w₁ := fun hd => by
  obtain ⟨F, hx⟩ := ready hd
  exact ⟨F, hheap ▸ hx.inOrder, hheap ▸ hx.counted, trivial⟩

theorem putAside_frees {env : Env Unit} {n : Nat} {hs : List Handle} {w : World Unit}
    (henv : env.Lawful ownerless) (hfrees : env.Frees ownerless n)
    (ready : Ready ownerless .strict ↑hs w) (hlive : w.heap.stats.live ≤ n) :
    (putAside hs env w).Settles False fun _ w' => w'.heap.stats.live ≤ w.heap.stats.live := by
  obtain ⟨w₁, hraise, -, hheap⟩ := raise_run .runtimeError "late" env
    (rfl : ({ w with pending := none } : World Unit).pending = none)
  have hrun : putAside hs env w = (do
      releaseAll hs
      Indicator.clear
      Indicator.putBack w.pending : Act Unit Unit) env w₁ := by
    unfold putAside
    simp only [bind_run, Indicator.take, Indicator.swap, hraise]
  rw [hrun]
  have hrelease := releaseAll_frees henv hfrees hs (ownerless_ready ready hheap)
    ((congrArg (·.stats.live) hheap).trans_le hlive)
  refine hrelease.bind fun _ w₂ _ hle => ?_
  obtain ⟨w₃, hclear, hnone, hheap₃⟩ := clear_run env w₂
  obtain ⟨w₄, hback, -, hheap₄⟩ := putBack_run w.pending env hnone
  rw [bind_run, hclear]
  change (Indicator.putBack w.pending env w₃).Settles _ _
  rw [hback]
  change w₄.heap.stats.live ≤ w.heap.stats.live
  rw [hheap₄, hheap₃]
  exact hle.trans_eq (by rw [hheap])

theorem failed_call_pending_putAside :
    ∃ w' w₁, Fails (failing putAside) ⟨0, 0⟩ failingArguments [⟨1, 0⟩] ⟨.valueError, "boom"⟩ ⟨2, 0⟩
        failingWorld w' ∧
      call ⟨0, 0⟩ failingArguments [⟨1, 0⟩] (.discard ()) (failing putAside) failingWorld =
        .done (.error .alreadyRaised) w₁ ∧
      Exact ownerless {⟨0, 0⟩} w₁ ∧ w₁.pending = some ⟨.valueError, "boom"⟩ := by
  obtain ⟨w', hfails, hlive⟩ := failing_fails putAside
  have harguments : ∀ a ∈ failingArguments, Conserves ownerless .strict 0 a fun o => ↑o.toList := by
    intro a ha
    rw [List.mem_singleton.1 ha]
    exact .map (f := some) (acquire_conserves rfl)
  obtain ⟨w₁, hcall, hx, hkept⟩ := failed_call_pending (.discard ())
    (failing_lawful putAside_conserves) (fun env n henv hfrees _ hs w => putAside_frees henv hfrees)
    harguments failingWorld_exact hfails (by rw [hlive]; decide)
  exact ⟨w', w₁, hfails, hcall, hx, hkept (not_meddles fun _ _ _ _ _ => putAside_keeps)⟩

def forget (hs : List Handle) : Act Unit Unit := do
  Indicator.clear
  releaseAll hs

theorem failing_forgets : ((do
      let _ ← call ⟨0, 0⟩ failingArguments [⟨1, 0⟩] (.discard ())
      Indicator.get) (failing forget) failingWorld).answer? = some none := by
  decide +kernel

/-- The function raises, and nothing is pending when its caller is told so. -/
theorem failed_call_forgets :
    ∃ w' w₁, Fails (failing forget) ⟨0, 0⟩ failingArguments [⟨1, 0⟩] ⟨.valueError, "boom"⟩ ⟨2, 0⟩
        failingWorld w' ∧
      call ⟨0, 0⟩ failingArguments [⟨1, 0⟩] (.discard ()) (failing forget) failingWorld =
        .done (.error .alreadyRaised) w₁ ∧
      w₁.pending = none := by
  obtain ⟨w', hfails, -⟩ := failing_fails forget
  obtain ⟨w₁, hrun⟩ := Outcome.answer?_eq_some.1 failing_forgets
  obtain ⟨r, w₁, hcall, hnone⟩ := bind_eq_done.1 hrun
  obtain ⟨-, w₂, hrelease, hr⟩ := bind_eq_done.1 (hfails.call_run.symm.trans hcall)
  cases hr
  exact ⟨w', w₁, hfails, hcall, congrArg (fun o => o.answer?.join) hnone⟩

end Callable

end Causeway
