import Causeway.Protocol
import Causeway.Proofs.Settling
/-!
# Invocations

`invoke` under any environment at all: bodies may raise, clear, re-enter and give back what is not
theirs, and a destructor may do so as well. What it enters is told by a listener, a client that
keeps a list beside its own state. Listening changes nothing else, so what is heard is what happens.
-/
set_option autoImplicit false

namespace Causeway

open Act

variable {U α β : Type} {env : Env U} {w w₁ w' : World U} {callable arguments stray : Handle}
  {name : String} {code : CodeId} {hs : List Handle} {e : Raised} {out answer : Option Handle}

/-- Where an action leaves the library: user code it enters, and units it gives back. -/
inductive Entry where
  | call (code : CodeId) (arguments : List Handle)
  | slot (code : CodeId) (h : Handle)
  | measure (code : CodeId) (h : Handle)
  | destroy (code : CodeId) (units : List Handle)
  | convert (code : CodeId)
  | release (h : Handle)
deriving DecidableEq

def World.heard (w : World U) (log : List Entry) : World (U × List Entry) :=
  ⟨w.heap, w.pending, w.settings, (w.client, log)⟩

def World.unheard (w : World (U × List Entry)) : World U :=
  ⟨w.heap, w.pending, w.settings, w.client.1⟩

def Outcome.heard (log : List Entry) : Outcome U α → Outcome (U × List Entry) α
  | .done a w => .done a (w.heard log)
  | .fault c w => .fault c (w.heard log)
  | .unfinished => .unfinished

def hearing (e : Entry) (run : World U → Outcome U α) (w : World (U × List Entry)) :
    Outcome (U × List Entry) α :=
  (run w.unheard).heard (w.client.2 ++ [e])

/-- The environment with a listener: every entry is put down before it is made. -/
def Env.listening (env : Env U) : Env (U × List Entry) where
  budget := env.budget
  release h := hearing (.release h) (env.release h)
  observe e u := (env.observe e u.1, u.2)
  hooks :=
    { call := fun c hs => hearing (.call c hs) (env.hooks.call c hs)
      slot := fun c h => hearing (.slot c h) (env.hooks.slot c h)
      measure := fun c h => hearing (.measure c h) (env.hooks.measure c h)
      destroy := fun c hs => hearing (.destroy c hs) (env.hooks.destroy c hs)
      toPeer := fun c t v => hearing (.convert c) (env.hooks.toPeer c t v) }

theorem hearing_heard (e : Entry) (run : World U → Outcome U α) (w : World U) (log : List Entry) :
    hearing e run (w.heard log) = (run w).heard (log ++ [e]) := rfl

/-- The two actions are one, written for a client with a listener and without, that makes no
entry. -/
def Silent (x : Act U α) (x' : Act (U × List Entry) α) : Prop :=
  ∀ env w log, x' env.listening (w.heard log) = (x env w).heard log

theorem Silent.pure (a : α) : Silent (pure a : Act U α) (Pure.pure a) := fun _ _ _ => rfl

theorem Silent.bind {x : Act U α} {x' : Act (U × List Entry) α} {f : α → Act U β}
    {f' : α → Act (U × List Entry) β} (hx : Silent x x') (hf : ∀ a, Silent (f a) (f' a)) :
    Silent (x >>= f) (x' >>= f') := by
  intro env w log
  rw [bind_run, bind_run, hx env w log]
  cases x env w with
  | done a w₁ => exact hf a env w₁ log
  | fault c w₁ => rfl
  | unfinished => rfl

theorem Silent.emit (e : Log.Event) : Silent (Act.emit e : Act U Unit) (Act.emit e) :=
  fun _ _ _ => rfl

theorem Silent.swap (next : Option Raised) :
    Silent (Indicator.swap next : Act U (Option Raised)) (Indicator.swap next) := fun _ _ _ => rfl

theorem Silent.indicatorRaise (e : Raised) :
    Silent (Indicator.raise e : Act U Unit) (Indicator.raise e) := by
  refine (Silent.emit _).bind fun _ => (Silent.swap _).bind fun previous => ?_
  cases previous with
  | none => exact .pure ()
  | some previous =>
    intro env w log
    simp only [bind_run, Act.settings, World.heard]
    split <;> rfl

structure Heap.Applies (heap : Heap) (callable arguments : Handle) (name : String) (code : CodeId)
    (hs : List Handle) : Prop where
  function : heap.payload? callable = some (.function name code)
  slots : heap.payload? arguments = some (.tuple (hs.map some))

def refusal (e : Raised) : Act U (Option α) := do
  Indicator.raise e
  pure none

def reproach (name : String) : Act U (Option Handle) := do
  let text := match ← Indicator.take with
    | some e => e.text
    | none => ""
  raise .runtimeError s!"{name}() returned a result with an error set ({text})"
  Act.emit (.callFailed name)
  pure none

def verdict (name : String) (out : Option Handle) : Act U (Option Handle) := do
  match out, ← Indicator.isSet with
  | some h, false => pure (some h)
  | none, true =>
    Act.emit (.callFailed name)
    pure none
  | none, false =>
    raise .runtimeError s!"{name}() returned no result without setting an error"
    Act.emit (.callFailed name)
    pure none
  | some stray, true =>
    release stray
    reproach name

theorem filledSlots_map_some (hs : List Handle) (index : Nat) :
    filledSlots (hs.map some) index = .ok hs := by
  induction hs generalizing index with
  | nil => rfl
  | cons h hs ih => simp [filledSlots, ih, Except.map]

theorem eq_map_some_of_filledSlots {slots : List (Option Handle)} {index : Nat}
    (h : filledSlots slots index = .ok hs) : slots = hs.map some := by
  induction slots generalizing index hs with
  | nil =>
    cases h
    rfl
  | cons slot slots ih =>
    cases slot with
    | none => cases h
    | some k =>
      cases hrest : filledSlots slots (index + 1) with
      | error i => simp [filledSlots, hrest, Except.map] at h
      | ok rest =>
        have hhs : k :: rest = hs := by simpa [filledSlots, hrest, Except.map] using h
        rw [← hhs, ih hrest, List.map_cons]

def World.noting (w : World U) (env : Env U) (e : Log.Event) : World U :=
  { w with client := env.observe e w.client }

theorem invoke_applied (happlies : w.heap.Applies callable arguments name code hs) (env : Env U) :
    invoke callable arguments env w =
      match env.hooks.call code hs (w.noting env (.called name hs.length)) with
      | .done out w₁ => verdict name out env w₁
      | .fault c w₁ => .fault c w₁
      | .unfinished => .unfinished := by
  have hrun : invoke callable arguments env w =
      ((fun env w => env.hooks.call code hs w : Act U (Option Handle)) >>= verdict name) env
        (w.noting env (.called name hs.length)) := by
    simp only [invoke, bind_run, Act.heap, happlies.function, happlies.slots, filledSlots_map_some,
      Act.emit]
    rfl
  refine hrun.trans ((bind_run (fun env w => env.hooks.call code hs w) _ env _).trans ?_)
  cases env.hooks.call code hs (w.noting env (.called name hs.length)) <;> rfl

theorem invoke_eq_done (happlies : w.heap.Applies callable arguments name code hs) {env : Env U}
    {answer : Option Handle} {w' : World U} :
    invoke callable arguments env w = .done answer w' ↔
      ∃ out w₁, env.hooks.call code hs (w.noting env (.called name hs.length)) = .done out w₁ ∧
        verdict name out env w₁ = .done answer w' := by
  rw [invoke_applied happlies]
  cases env.hooks.call code hs (w.noting env (.called name hs.length)) with
  | done out w₁ => exact ⟨fun h => ⟨out, w₁, rfl, h⟩, fun ⟨_, _, rfl, h⟩ => h⟩
  | fault c w₁ => exact ⟨nofun, nofun⟩
  | unfinished => exact ⟨nofun, nofun⟩

theorem invoke_released (hp : w.heap.payload? callable = none) (env : Env U) :
    invoke callable arguments env w =
      refusal ⟨.runtimeError, "call of a released object"⟩ env w := by
  simp only [invoke, bind_run, Act.heap, hp]
  rfl

theorem invoke_not_function {p : Payload} (hp : w.heap.payload? callable = some p)
    (hno : ∀ name code, p ≠ .function name code) (env : Env U) :
    invoke callable arguments env w =
      refusal ⟨.typeError, s!"'{p.typeName}' object is not callable"⟩ env w := by
  simp only [invoke, bind_run, Act.heap, hp]
  cases p with
  | function name code => exact absurd rfl (hno name code)
  | _ => rfl

theorem invoke_not_tuple (hp : w.heap.payload? callable = some (.function name code))
    (hno : ∀ slots, w.heap.payload? arguments ≠ some (.tuple slots)) (env : Env U) :
    invoke callable arguments env w =
      refusal ⟨.typeError, s!"{name}() argument container must be a tuple"⟩ env w := by
  simp only [invoke, bind_run, Act.heap, hp]
  cases hq : w.heap.payload? arguments with
  | none => rfl
  | some q =>
    cases q with
    | tuple slots => exact absurd hq (hno slots)
    | _ => rfl

theorem invoke_unset {slots : List (Option Handle)} {i : Nat}
    (hp : w.heap.payload? callable = some (.function name code))
    (hslots : w.heap.payload? arguments = some (.tuple slots))
    (hunset : filledSlots slots 0 = .error i) (env : Env U) :
    invoke callable arguments env w =
      refusal ⟨.runtimeError, s!"{name}() argument {i} was never set"⟩ env w := by
  simp only [invoke, bind_run, Act.heap, hp, hslots, hunset]
  rfl

/-- Without the two a call is a refusal, and which one only the heap says. -/
theorem invoke_refused {heap : Heap}
    (hnone : ∀ name code hs, ¬heap.Applies callable arguments name code hs) :
    ∃ e, ∀ {U : Type} (env : Env U) (w : World U), w.heap = heap →
      invoke callable arguments env w = refusal e env w := by
  cases hp : heap.payload? callable with
  | none => exact ⟨_, fun env w hw => invoke_released (hw ▸ hp) env⟩
  | some p =>
    by_cases hfunction : ∃ name code, p = .function name code
    · obtain ⟨name, code, rfl⟩ := hfunction
      by_cases htuple : ∃ slots, heap.payload? arguments = some (.tuple slots)
      · obtain ⟨slots, hslots⟩ := htuple
        cases hfilled : filledSlots slots 0 with
        | error i => exact ⟨_, fun env w hw => invoke_unset (hw ▸ hp) (hw ▸ hslots) hfilled env⟩
        | ok hs =>
          rw [eq_map_some_of_filledSlots hfilled] at hslots
          exact absurd ⟨hp, hslots⟩ (hnone name code hs)
      · exact ⟨_, fun env w hw =>
          invoke_not_tuple (hw ▸ hp) (fun slots h => htuple ⟨slots, hw ▸ h⟩) env⟩
    · exact ⟨_, fun env w hw =>
        invoke_not_function (hw ▸ hp) (fun name code h => hfunction ⟨name, code, h⟩) env⟩

/-- Raising replaces what was pending; with strict settings that is a fault. -/
theorem indicatorRaise_cases (e : Raised) (env : Env U) (w : World U) :
    ∃ w', w'.pending = some e ∧ w'.heap = w.heap ∧
      (Indicator.raise e env w = .done () w' ∨
        ∃ previous, w.pending = some previous ∧ w.settings.strictIndicator = true ∧
          Indicator.raise e env w = .fault (.raisedOverPending previous) w') := by
  obtain ⟨heap, pending, settings, client⟩ := w
  cases pending with
  | none => exact ⟨⟨heap, some e, settings, env.observe (.raised e) client⟩, rfl, rfl, .inl rfl⟩
  | some previous =>
    have hrun : Indicator.raise e env ⟨heap, some previous, settings, client⟩ =
        (if settings.strictIndicator then Act.fault (.raisedOverPending previous)
          else Act.emit (.overwritten previous) : Act U Unit) env
          ⟨heap, some e, settings, env.observe (.raised e) client⟩ := rfl
    by_cases hstrict : settings.strictIndicator
    · rw [if_pos hstrict] at hrun
      refine ⟨⟨heap, some e, settings, env.observe (.raised e) client⟩, rfl, rfl, .inr ?_⟩
      exact ⟨previous, rfl, hstrict, hrun⟩
    · rw [if_neg hstrict] at hrun
      let w₁ : World U := ⟨heap, some e, settings, env.observe (.raised e) client⟩
      exact ⟨w₁.noting env (.overwritten previous), rfl, rfl, .inl hrun⟩

theorem indicatorRaise_done (h : Indicator.raise e env w = .done () w') :
    w'.pending = some e ∧ w'.heap = w.heap := by
  obtain ⟨w₁, hpending, hheap, hrun | ⟨previous, -, -, hrun⟩⟩ := indicatorRaise_cases e env w
  · rw [hrun] at h
    cases h
    exact ⟨hpending, hheap⟩
  · rw [hrun] at h
    cases h

/-- There is no answer, an error is raised, and the heap is left alone. Over another error strict
settings make a fault of it. -/
def Refuses (x : Act U (Option α)) (e : Raised) (env : Env U) (w : World U) : Prop :=
  ∃ w', w'.pending = some e ∧ w'.heap = w.heap ∧
    (x env w = .done none w' ∨
      ∃ previous, w.pending = some previous ∧ w.settings.strictIndicator = true ∧
        x env w = .fault (.raisedOverPending previous) w')

theorem refusal_refuses (e : Raised) (env : Env U) (w : World U) :
    Refuses (refusal e : Act U (Option α)) e env w := by
  obtain ⟨w', hpending, hheap, hrun | ⟨previous, hprevious, hstrict, hrun⟩⟩ :=
    indicatorRaise_cases e env w
  · exact ⟨w', hpending, hheap, .inl (by simp [refusal, bind_run, hrun, pure_run])⟩
  · refine ⟨w', hpending, hheap, .inr ⟨previous, hprevious, hstrict, ?_⟩⟩
    simp [refusal, bind_run, hrun]

/-- Said of the function or not, an error raised in its place stays. -/
theorem failed_done {kind : ExceptionKind} {message : String}
    (h : (do raise kind message; Act.emit (.callFailed name); pure none :
      Act U (Option Handle)) env w = .done answer w') :
    answer = none ∧ w'.pending = some ⟨kind, message⟩ := by
  obtain ⟨⟨⟩, w₁, hraise, hrest⟩ := bind_eq_done.1 h
  cases hrest
  exact ⟨rfl, (indicatorRaise_done hraise).1⟩

theorem reproach_done (h : reproach name env w = .done answer w') :
    answer = none ∧ w'.pending ≠ none := by
  obtain ⟨previous, w₁, -, hrest⟩ := bind_eq_done.1 h
  obtain ⟨hanswer, hpending⟩ := failed_done hrest
  exact ⟨hanswer, by simp [hpending]⟩

theorem verdict_heard {h : Handle} (clear : w.pending = none) :
    verdict name (some h) env w = .done (some h) w := by
  simp [verdict, bind_run, pure_run, Indicator.isSet, clear]

/-- With an error of its own, a function that answers nothing has nothing said about it. -/
theorem verdict_failed (hpending : w.pending = some e) :
    verdict name none env w = .done none (w.noting env (.callFailed name)) := by
  simp [verdict, bind_run, pure_run, Indicator.isSet, hpending, Act.emit, World.noting]

theorem verdict_done (h : verdict name out env w = .done answer w') :
    answer = none ↔ w'.pending ≠ none := by
  unfold verdict at h
  rw [bind_run] at h
  simp only [Indicator.isSet] at h
  cases hpending : w.pending with
  | none =>
    cases out with
    | some k =>
      simp only [hpending, Option.isSome_none, pure_run, Outcome.done.injEq] at h
      obtain ⟨rfl, rfl⟩ := h
      simp [hpending]
    | none =>
      rw [hpending] at h
      obtain ⟨hanswer, hset⟩ := failed_done h
      simp [hanswer, hset]
  | some e =>
    cases out with
    | some stray =>
      rw [hpending] at h
      obtain ⟨⟨⟩, w₁, -, hrest⟩ := bind_eq_done.1 h
      obtain ⟨hanswer, hset⟩ := reproach_done hrest
      simp [hanswer, hset]
    | none =>
      rw [hpending] at h
      cases h
      simp [hpending]

theorem silent_refusal (e : Raised) : Silent (refusal e : Act U (Option α)) (refusal e) :=
  (Silent.indicatorRaise e).bind fun _ => .pure none

theorem silent_failed (e : Raised) (name : String) :
    Silent (do Indicator.raise e; Act.emit (.callFailed name); pure none : Act U (Option Handle))
      (do Indicator.raise e; Act.emit (.callFailed name); pure none) :=
  (Silent.indicatorRaise e).bind fun _ => (Silent.emit _).bind fun _ => .pure none

theorem silent_reproach (name : String) :
    Silent (reproach name : Act U (Option Handle)) (reproach name) :=
  (Silent.swap none).bind fun _ => silent_failed _ name

theorem verdict_quiet (hquiet : out = none ∨ w.pending = none) (log : List Entry) :
    verdict name out env.listening (w.heard log) = (verdict name out env w).heard log := by
  unfold verdict
  rw [bind_run, bind_run]
  simp only [Indicator.isSet, World.heard]
  cases hpending : w.pending with
  | none =>
    cases out with
    | some k => simp [pure_run, Outcome.heard, World.heard, hpending]
    | none =>
      have hsilent := silent_failed
        ⟨.runtimeError, s!"{name}() returned no result without setting an error"⟩ name env w log
      rw [World.heard, hpending] at hsilent
      exact hsilent
  | some e =>
    have hnone : out = none := hquiet.resolve_right (by simp [hpending])
    subst hnone
    simp [bind_run, pure_run, Act.emit, Env.listening, Outcome.heard, World.heard, hpending]

theorem verdict_stray (hset : w.pending ≠ none) (env : Env U) :
    verdict name (some stray) env w = (release stray >>= fun _ => reproach name) env w := by
  obtain ⟨e, hpending⟩ := Option.ne_none_iff_exists'.1 hset
  unfold verdict
  rw [bind_run]
  simp only [Indicator.isSet, hpending]
  rfl

theorem verdict_stray_heard (hset : w.pending ≠ none) (log : List Entry) :
    verdict name (some stray) env.listening (w.heard log) =
      (verdict name (some stray) env w).heard (log ++ [.release stray]) := by
  rw [verdict_stray hset, verdict_stray (w := w.heard log) hset, bind_run, bind_run]
  have hrelease : release stray env.listening (w.heard log) =
      (release stray env w).heard (log ++ [.release stray]) := hearing_heard _ _ w log
  rw [hrelease]
  cases release stray env w with
  | done _ w₁ => exact silent_reproach name env w₁ _
  | fault c w₁ => rfl
  | unfinished => rfl

/-- What is heard of the body is heard before anything else. -/
theorem invoke_heard (happlies : w.heap.Applies callable arguments name code hs) (env : Env U) :
    invoke callable arguments env.listening (w.heard []) =
      match env.hooks.call code hs (w.noting env (.called name hs.length)) with
      | .done out w₁ => verdict name out env.listening (w₁.heard [.call code hs])
      | .fault c w₁ => .fault c (w₁.heard [.call code hs])
      | .unfinished => .unfinished := by
  rw [invoke_applied (w := w.heard []) happlies]
  have hbody : env.listening.hooks.call code hs
      ((w.heard []).noting env.listening (.called name hs.length)) =
        (env.hooks.call code hs (w.noting env (.called name hs.length))).heard [.call code hs] := rfl
  rw [hbody]
  cases env.hooks.call code hs (w.noting env (.called name hs.length)) <;> rfl

/-- Where giving back is the heap's own, an object that is given back has one unit less. -/
theorem releaseNow_takes (ho : w.heap.InOrder) (h : Handle)
    (run : releaseNow h env w = .done () w') :
    ∃ r heap, w.heap.decrement? h = some (r, heap) ∧ heap.refcount h + 1 = w.heap.refcount h := by
  have htaken : ∃ r heap, w.heap.decrement? h = some (r, heap) := by
    obtain ⟨-, hfault⟩ | ⟨n, heap, -, hd, -⟩ | ⟨p, heap, -, hd, -⟩ := releaseNow_cases h env w
    · rw [hfault] at run
      cases run
    · exact ⟨_, heap, hd⟩
    · exact ⟨_, heap, hd⟩
  obtain ⟨r, heap, hd⟩ := htaken
  exact ⟨r, heap, hd, by simpa using Heap.decrement?_refcount ho hd h⟩

/-- A call answers no object exactly when the indicator is set. It enters the body of a live
function with a live tuple that is filled, once, and otherwise nothing. An error the body fails with
stays; an answer that comes with an error is given back, and nothing else is. -/
theorem invoke_keeps_contract (callable arguments : Handle) (env : Env U) (w : World U) :
    (∀ answer w', invoke callable arguments env w = .done answer w' →
      (answer = none ↔ w'.pending ≠ none)) ∧
    ((∀ name code hs, ¬w.heap.Applies callable arguments name code hs) →
      invoke callable arguments env.listening (w.heard []) =
        (invoke callable arguments env w).heard [] ∧
      ∃ e, Refuses (invoke callable arguments) e env w) ∧
    ∀ name code hs, w.heap.Applies callable arguments name code hs →
      match env.hooks.call code hs (w.noting env (.called name hs.length)) with
      | .done out w₁ =>
        (out = none ∨ w₁.pending = none →
          invoke callable arguments env.listening (w.heard []) =
            (invoke callable arguments env w).heard [.call code hs]) ∧
        (∀ e, out = none → w₁.pending = some e →
          ∃ w', invoke callable arguments env w = .done none w' ∧ w'.pending = some e) ∧
        ∀ stray, out = some stray → w₁.pending ≠ none →
          invoke callable arguments env.listening (w.heard []) =
            (invoke callable arguments env w).heard [.call code hs, .release stray] ∧
          ∀ answer w', invoke callable arguments env w = .done answer w' →
            ∃ w₂, env.release stray w₁ = .done () w₂ ∧
              ∀ below, w₁.heap.InOrder → env.release stray w₁ = releaseNow stray below w₁ →
                ∃ r heap, w₁.heap.decrement? stray = some (r, heap) ∧
                  heap.refcount stray + 1 = w₁.heap.refcount stray
      | .fault c w₁ =>
        invoke callable arguments env w = .fault c w₁ ∧
        invoke callable arguments env.listening (w.heard []) =
          (invoke callable arguments env w).heard [.call code hs]
      | .unfinished => invoke callable arguments env w = .unfinished := by
  refine ⟨fun answer w' hrun => ?_, fun hnone => ?_, fun name code hs happlies => ?_⟩
  · by_cases happlies : ∃ name code hs, w.heap.Applies callable arguments name code hs
    · obtain ⟨name, code, hs, happlies⟩ := happlies
      rw [invoke_applied happlies] at hrun
      cases hbody : env.hooks.call code hs (w.noting env (.called name hs.length)) with
      | done out w₁ =>
        rw [hbody] at hrun
        exact verdict_done hrun
      | fault c w₁ => simp [hbody] at hrun
      | unfinished => simp [hbody] at hrun
    · have hnone (name : String) (code : CodeId) (hs : List Handle) :
          ¬w.heap.Applies callable arguments name code hs := fun h => happlies ⟨name, code, hs, h⟩
      obtain ⟨e, hrefused⟩ := invoke_refused hnone
      rw [hrefused env w rfl] at hrun
      obtain ⟨w₁, hpending, -, hdone | ⟨previous, -, -, hfault⟩⟩ := refusal_refuses e env w
      · rw [hdone] at hrun
        cases hrun
        simp [hpending]
      · rw [hfault] at hrun
        cases hrun
  · obtain ⟨e, hrefused⟩ := invoke_refused hnone
    have hsilent := silent_refusal (α := Handle) e env w []
    refine ⟨?_, e, ?_⟩
    · rw [hrefused env w rfl, hrefused env.listening (w.heard []) rfl, hsilent]
    · rw [Refuses, hrefused env w rfl]
      exact refusal_refuses e env w
  · have hrun := invoke_applied happlies env
    have hheard := invoke_heard happlies env
    cases hbody : env.hooks.call code hs (w.noting env (.called name hs.length)) with
    | unfinished => simpa [hbody] using hrun
    | fault c w₁ =>
      simp only [hbody] at hrun hheard
      exact ⟨hrun, by rw [hheard, hrun, Outcome.heard]⟩
    | done out w₁ =>
      simp only [hbody] at hrun hheard
      refine ⟨fun hquiet => ?_, fun e hout hpending => ?_, fun stray hout hset => ?_⟩
      · rw [hheard, hrun, verdict_quiet hquiet]
      · subst hout
        refine ⟨w₁.noting env (.callFailed name), hrun.trans ?_, hpending⟩
        simp [verdict, bind_run, pure_run, Indicator.isSet, hpending, Act.emit, World.noting]
      · subst hout
        refine ⟨by rw [hheard, hrun, verdict_stray_heard hset]; rfl, fun answer w' hdone => ?_⟩
        rw [hrun, verdict_stray hset] at hdone
        obtain ⟨⟨⟩, w₂, hrelease, -⟩ := bind_eq_done.1 hdone
        refine ⟨w₂, hrelease, fun below ho hnow => ?_⟩
        exact releaseNow_takes ho stray (hnow.symm.trans hrelease)

end Causeway
