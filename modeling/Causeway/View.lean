import Causeway.Cursor
/-!
# Views

A view over a peer iterable holds the iterable and never a position: every pass asks the peer for a
fresh iterator. The passes here visit every element and end alike.
-/
set_option autoImplicit false

namespace Causeway

variable {U α σ : Type}

namespace View

/-- A unit on the object for a view to own; a failure unless iteration over it would start. -/
def make (h : Handle) : Act U (Except Failure Handle) := do
  if ← isIterable h then .ok <$> acquire h
  else pure (.error (.of (.notIterable (← typeNameOf h))))

def begin (p : Intake U α) (iterable : Handle) : Act U (Except Failure (Cursor α)) := do
  match ← getIter iterable with
  | none =>
    if ← Indicator.isSet then pure (.error .alreadyRaised)
    else pure (.error (.of (.protocol "iter" "no iterator returned and no error set")))
  | some iterator =>
    Act.emit (.iterationStarted (← typeNameOf iterable))
    let (c, failure) ← holding [iterator] (Cursor.fetch p (.start iterator))
    match failure with
    | some f =>
      c.drop p
      pure (.error f)
    | none => pure (.ok c)

def abandon (p : Intake U α) (iterator : Handle) (out : Array α) : Act U Unit :=
  releaseAll (iterator :: out.toList.flatMap p.units)

/-- Draws values out of a cursor, which it takes over, and puts them behind those of `out`. -/
def drawFrom (p : Intake U α) (c : Cursor α) (out : Array α) :
    Act U (Except Failure (List α)) :=
  Act.loop
    (fun (c, out) => do
      match ← (c.next p).onFault (abandon p c.iterator out) with
      | (c, some (.ok v)) => pure (.inl (c, out.push v))
      | (c, some (.error f)) =>
        let units := out.toList.flatMap p.units
        holding units (c.drop p)
        releaseAll units
        pure (.inr (.error f))
      | (c, none) =>
        holding (out.toList.flatMap p.units) (c.drop p)
        pure (.inr (.ok out.toList)))
    (c, out)

def collect (p : Intake U α) (iterable : Handle) : Act U (Except Failure (List α)) := do
  match ← begin p iterable with
  | .error f => pure (.error f)
  | .ok c => drawFrom p c #[]

def reserveHinted (p : Intake U α) (iterable : Handle) : Act U Unit := do
  match ← lengthHint iterable with
  | some count => Act.reserve count p.width
  | none => pure ()

/-- All values of a pass, with room made for them beforehand if the settings say so. -/
def collectSized (p : Intake U α) (iterable : Handle) : Act U (Except Failure (List α)) := do
  if (← Act.settings).reserveFromHint then reserveHinted p iterable
  collect p iterable

/-- The settings have room made for what the iterable says it has, and there cannot be as much. -/
def Overstates (p : Intake U α) (iterable : Handle) (env : Env U) (w : World U) : Prop :=
  w.settings.reserveFromHint = true ∧ ∃ count w',
    lengthHint iterable env w = .done (some count) w' ∧ Nat.pow 2 63 ≤ count * p.width

section

variable {p : Intake U α} {iterable : Handle} {env : Env U} {w w' : World U} {count : Option Nat}

theorem collectSized_unasked (off : w.settings.reserveFromHint = false) :
    collectSized p iterable env w = collect p iterable env w := by
  rw [collectSized, Act.bind_run]
  change (if w.settings.reserveFromHint then _ else _ : Act U _) env w = _
  rw [if_neg (Bool.eq_false_iff.1 off)]

theorem collectSized_asked (on : w.settings.reserveFromHint = true) :
    collectSized p iterable env w =
      (reserveHinted p iterable >>= fun _ => collect p iterable) env w := by
  rw [collectSized, Act.bind_run]
  change (if w.settings.reserveFromHint then _ else _ : Act U _) env w = _
  rw [if_pos on]

theorem collectSized_fault (h : Overstates p iterable env w) : ∃ count w',
    lengthHint iterable env w = .done count w' ∧
      collectSized p iterable env w = .fault .capacityOverflow w' := by
  obtain ⟨on, count, w', hhint, full⟩ := h
  have hreserve : reserveHinted p iterable env w = .fault .capacityOverflow w' := by
    rw [reserveHinted, Act.bind_run, hhint]
    exact Act.reserve_fault full env w'
  exact ⟨_, w', hhint, by rw [collectSized_asked on, Act.bind_run, hreserve]⟩

theorem collectSized_done (on : w.settings.reserveFromHint = true)
    (hhint : lengthHint iterable env w = .done count w') (h : ¬Overstates p iterable env w) :
    collectSized p iterable env w = collect p iterable env w' := by
  have hreserve : reserveHinted p iterable env w = .done () w' := by
    rw [reserveHinted, Act.bind_run, hhint]
    cases count with
    | none => rfl
    | some n => exact Act.reserve_done (Nat.not_le.1 fun full => h ⟨on, n, w', hhint, full⟩) env w'
  rw [collectSized_asked on, Act.bind_run, hreserve]

end

/-- Visits the values of a pass and discards them. A failure comes with what the visits left. -/
def tryForEach (p : Intake U α) (visit : σ → α → Act U σ) (iterable : Handle) (s : σ) :
    Act U (Except Failure Unit × σ) := do
  match ← begin p iterable with
  | .error f => pure (.error f, s)
  | .ok c =>
    Act.loop
      (fun (c, s) => do
        match c.get? with
        | none =>
          c.drop p
          pure (.inr (.ok (), s))
        | some v =>
          let s ← (visit s v).onFault (c.drop p)
          match ← holding [c.iterator] (c.advance p) with
          | (c, none) => pure (.inl (c, s))
          | (c, some f) =>
            c.drop p
            pure (.inr (.error f, s)))
      (c, s)

end View

end Causeway
