import Causeway.Proofs.Alike
/-!
# What a pass does

The reference is a loop with no lookahead and no cleanup: ask for an iterator; ask it for an object
and convert that; give the object back before asking again; give the iterator back at the end. It
has no bound on its rounds, so it is a relation.

Every consumer of a whole pass does this and nothing else, in this order, whatever the slots and the
converter do and however they re-enter. Environments may keep account of every call in what the
client keeps, so that worlds agree at the end says that the calls on the way did.
-/
set_option autoImplicit false

namespace Causeway

open Act

variable {U α β γ σ : Type}

namespace View

inductive Ending where
  | ended
  /-- `iter` gave nothing, and did not say why. -/
  | noIterator
  /-- The peer raised an error, which is still pending. -/
  | raised (e : Raised)
  /-- The element at this index did not convert. -/
  | refused (index : Nat)

namespace Ending

def failure? : Ending → Option Failure
  | ended => none
  | noIterator => some (.of (.protocol "iter" "no iterator returned and no error set"))
  | raised _ => some .alreadyRaised
  | refused index => some (.of (.elementConversion index))

/-- What an ending says about the number of values before it, and about the indicator after it. -/
def Fits : Ending → (seen : Nat) → (pending : Option Raised) → Prop
  | ended, _, pending => pending = none
  | noIterator, seen, pending => seen = 0 ∧ pending = none
  | raised e, _, pending => pending = some e
  | refused index, seen, pending => index = seen ∧ pending = none

def result (e : Ending) (value : α) : Except Failure α :=
  match e.failure? with
  | none => .ok value
  | some f => .error f

end Ending

def opening (iterable : Handle) : Act U (Ending ⊕ Handle) := do
  match ← getIter iterable with
  | none =>
    match ← Indicator.get with
    | some e => pure (.inl (.raised e))
    | none => pure (.inl .noIterator)
  | some it =>
    Act.emit (.iterationStarted (← typeNameOf iterable))
    match ← Indicator.get with
    | some e =>
      release it
      pure (.inl (.raised e))
    | none => pure (.inr it)

inductive Pull (α : Type) where
  | item (element : Handle) (v : α)
  | stop (e : Ending)

namespace Pull

def failure? : Pull α → Option Failure
  | item _ _ => none
  | stop e => e.failure?

def Fits : Pull α → (seen : Nat) → (pending : Option Raised) → Prop
  | item _ _, _, pending => pending = none
  | stop e, seen, pending => e.Fits seen pending

end Pull

def refuse (element : Handle) (index : Nat) : Act U (Pull α) := do
  release element
  Indicator.clear
  Act.emit (.conversionFailed .element index)
  pure (.stop (.refused index))

def pull (convert : Handle → Act U (Option α)) (it : Handle) (index : Nat) : Act U (Pull α) := do
  match ← iterNext it with
  | none =>
    match ← Indicator.get with
    | some e => pure (.stop (.raised e))
    | none =>
      Act.emit (.iterationEnded index)
      pure (.stop .ended)
  | some element =>
    let out ← convert element
    match out, ← Indicator.isSet with
    | some v, false => pure (.item element v)
    | _, _ => refuse element index

variable (convert : Handle → Act U (Option α)) (env : Env U)

/-- How a pass goes on from what was pulled at an index: the values from there, and the ending. -/
inductive Rest (it : Handle) :
    Pull α → Nat → World U → List α → Ending → World U → Prop where
  | stop {e : Ending} {index : Nat} {w w' : World U} (dropped : release it env w = .done () w') :
      Rest it (.stop e) index w [] e w'
  | item {element : Handle} {v : α} {index : Nat} {w w₁ w' : World U} {x : Pull α} {vs : List α}
      {e : Ending}
      (pulled : (do
        release element
        pull convert it (index + 1)) env w = .done x w₁)
      (rest : Rest it x (index + 1) w₁ vs e w') :
      Rest it (.item element v) index w (v :: vs) e w'

/-- A whole pass: the values in order, and the ending. -/
inductive Pass (iterable : Handle) : World U → List α → Ending → World U → Prop where
  | refused {e : Ending} {w w' : World U} (opened : opening iterable env w = .done (.inl e) w') :
      Pass iterable w [] e w'
  | started {it : Handle} {w w₁ w₂ w' : World U} {x : Pull α} {vs : List α} {e : Ending}
      (opened : opening iterable env w = .done (.inr it) w₁)
      (pulled : pull convert it 0 env w₁ = .done x w₂)
      (rest : Rest convert env it x 0 w₂ vs e w') :
      Pass iterable w vs e w'

variable {convert} {env} {it iterable : Handle} {w w₁ w₂ w' : World U} {x : Pull α} {index : Nat}
  {vs : List α} {e : Ending}

theorem release_calm (hcalm : env.Calm) {h : Handle} (hrun : release h env w = .done () w') :
    w'.pending = w.pending := by
  have hkept := hcalm h w
  rwa [show env.release h w = .done () w' from hrun] at hkept

theorem refuse_fits {element : Handle}
    (h : (refuse element index : Act U (Pull α)) env w = .done x w') :
    x.Fits index w'.pending := by
  obtain ⟨_, w₁, -, h⟩ := bind_eq_done.1 h
  obtain ⟨_, w₂, hrun, h⟩ := bind_eq_done.1 h
  obtain ⟨_, _, ⟨rfl, rfl⟩, h⟩ := bind_eq_done.1 h
  obtain ⟨rfl, rfl⟩ := h
  obtain ⟨w₃, hrun', hclear, _⟩ := clear_run env w₁
  obtain ⟨_, rfl⟩ := hrun'.symm.trans hrun
  exact ⟨rfl, hclear⟩

theorem pull_fits (h : pull convert it index env w = .done x w') : x.Fits index w'.pending := by
  obtain ⟨found, w₁, -, h⟩ := bind_eq_done.1 h
  cases found with
  | none =>
    obtain ⟨pending, w₁, ⟨rfl, rfl⟩, h⟩ := bind_eq_done.1 h
    cases hpending : w₁.pending with
    | some e =>
      rw [hpending] at h
      obtain ⟨rfl, rfl⟩ := h
      exact hpending
    | none =>
      rw [hpending] at h
      obtain ⟨_, _, ⟨rfl, rfl⟩, h⟩ := bind_eq_done.1 h
      obtain ⟨rfl, rfl⟩ := h
      exact hpending
  | some element =>
    obtain ⟨out, w₂, -, h⟩ := bind_eq_done.1 h
    obtain ⟨set, w₂, ⟨rfl, rfl⟩, h⟩ := bind_eq_done.1 h
    cases out with
    | none => exact refuse_fits h
    | some v =>
      cases hpending : w₂.pending with
      | some e =>
        rw [hpending] at h
        exact refuse_fits h
      | none =>
        rw [hpending] at h
        obtain ⟨rfl, rfl⟩ := h
        exact hpending

theorem opening_fits (hcalm : env.Calm) {opened : Ending ⊕ Handle}
    (h : opening iterable env w = .done opened w') :
    opened.elim (fun e => e.Fits 0 w'.pending) fun _ => w'.pending = none := by
  obtain ⟨found, w₁, -, h⟩ := bind_eq_done.1 h
  cases found with
  | none =>
    obtain ⟨pending, w₁, ⟨rfl, rfl⟩, h⟩ := bind_eq_done.1 h
    cases hpending : w₁.pending with
    | some e =>
      rw [hpending] at h
      obtain ⟨rfl, rfl⟩ := h
      exact hpending
    | none =>
      rw [hpending] at h
      obtain ⟨rfl, rfl⟩ := h
      exact ⟨rfl, hpending⟩
  | some it =>
    obtain ⟨name, w₁, ⟨rfl, rfl⟩, h⟩ := bind_eq_done.1 h
    obtain ⟨_, w₂, ⟨_, rfl⟩, h⟩ := bind_eq_done.1 h
    obtain ⟨pending, w₂, ⟨rfl, rfl⟩, h⟩ := bind_eq_done.1 h
    dsimp only at h
    cases hpending : w₁.pending with
    | some e =>
      rw [hpending] at h
      obtain ⟨_, w₃, hrun, h⟩ := bind_eq_done.1 h
      obtain ⟨rfl, rfl⟩ := h
      exact release_calm hcalm hrun
    | none =>
      rw [hpending] at h
      obtain ⟨rfl, rfl⟩ := h
      rfl

/-- Giving an element back before the next pull is no matter for the indicator. -/
theorem turn_fits {element : Handle} (h : (do
      release element
      pull convert it index) env w = .done x w') :
    x.Fits index w'.pending := by
  obtain ⟨_, w₁, -, hpull⟩ := bind_eq_done.1 h
  exact pull_fits hpull

theorem Rest.fits (hcalm : env.Calm) (hrest : Rest convert env it x index w vs e w')
    (hx : x.Fits index w.pending) : e.Fits (index + vs.length) w'.pending := by
  induction hrest with
  | stop dropped =>
    rw [release_calm hcalm dropped]
    exact hx
  | item pulled rest ih =>
    rw [List.length_cons, Nat.add_comm _ 1, ← Nat.add_assoc]
    exact ih (turn_fits pulled)

theorem Pass.fits (hcalm : env.Calm) (hpass : Pass convert env iterable w vs e w') :
    e.Fits vs.length w'.pending := by
  cases hpass with
  | refused opened => exact opening_fits hcalm opened
  | started opened pulled rest =>
    have hfits := rest.fits hcalm (pull_fits pulled)
    rwa [Nat.zero_add] at hfits

end View

end Causeway
