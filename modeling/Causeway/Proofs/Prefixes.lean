import Causeway.Proofs.CursorPlaces
import Causeway.Proofs.Invocation
import Causeway.Proofs.ReferencePass
/-!
# Prefixes of a pass

Whoever takes the first values of a pass has looked one element further. A cursor keeps a failure of
that look for the call after, which may never come; the element that did not convert has left the
indicator clear. An error that the peer iterator raised instead stays in the indicator, where whoever
gives up the rest of the pass finds it.
-/
set_option autoImplicit false

namespace Causeway

open Act

variable {U α : Type} {env : Env U} {p : Intake U α}

def Intake.Calm (env : Env U) (p : Intake U α) : Prop :=
  ∀ v w, (p.discard v env w).Settles True fun _ w' => w'.pending = w.pending

theorem Intake.calm_of_no_deleter (hcalm : env.Calm) (hp : p.deleter = none) : p.Calm env := by
  intro v w
  unfold Intake.discard
  rw [hp]
  exact releaseAll_calm hcalm (p.units v)

namespace Cursor

variable {c first c' : Cursor α} {w w₀ w₁ w' : World U} {failure : Option Failure} {v : α}
  {vs : List α} {iterable : Handle}

theorem refused_clear {hold : Act U Unit} {element : Handle} {e : Log.Event} {a a' : α}
    (h : (do
      hold
      release element
      Indicator.clear
      Act.emit e
      pure a : Act U α) env w = .done a' w') : w'.pending = none := by
  obtain ⟨_, w₁, -, h⟩ := bind_eq_done.1 h
  obtain ⟨_, w₂, -, h⟩ := bind_eq_done.1 h
  obtain ⟨_, w₃, hclear, h⟩ := bind_eq_done.1 h
  obtain ⟨_, _, ⟨⟩, ⟨⟩⟩ := bind_eq_done.1 h
  obtain ⟨w₄, hrun, hnone, -⟩ := clear_run env w₂
  obtain ⟨-, rfl⟩ := Outcome.done.inj (hrun.symm.trans hclear)
  exact hnone

/-- From a clear indicator, only an error that the iterator raises is pending afterwards. -/
theorem fetch_pending (clear : w.pending = none)
    (run : fetch p c env w = .done (c', failure) w') :
    w'.pending = none ∨
      (failure = some .alreadyRaised ∧ c' = { c with fused := true } ∧
        iterNext c.iterator env w = .done none w') := by
  unfold fetch at run
  split at run
  · cases run
    exact .inl clear
  rw [bind_run] at run
  simp only [Indicator.isSet, clear, Option.isSome_none, Bool.false_eq_true, if_false] at run
  obtain ⟨found, w₁, hnext, run⟩ := bind_eq_done.1 run
  cases found with
  | none =>
    obtain ⟨set, w₁, ⟨rfl, rfl⟩, run⟩ := bind_eq_done.1 run
    cases hpending : w₁.pending with
    | some e =>
      rw [hpending] at run
      cases run
      exact .inr ⟨rfl, rfl, hnext⟩
    | none =>
      rw [hpending] at run
      obtain ⟨_, _, ⟨⟩, ⟨⟩⟩ := bind_eq_done.1 run
      exact .inl hpending
  | some element =>
    obtain ⟨out, w₂, -, run⟩ := bind_eq_done.1 run
    obtain ⟨set, w₂, ⟨rfl, rfl⟩, run⟩ := bind_eq_done.1 run
    cases out with
    | none => exact .inl (refused_clear run)
    | some v =>
      cases hpending : w₂.pending with
      | some e =>
        rw [hpending] at run
        exact .inl (refused_clear run)
      | none =>
        rw [hpending] at run
        cases run
        exact .inl hpending

theorem fetch_clear (hfused : c.fused = false) (run : fetch p c env w = .done (c', none) w') :
    w'.pending = none := by
  cases hpending : w.pending with
  | none =>
    obtain hclear | ⟨hfailure, -⟩ := fetch_pending hpending run
    · exact hclear
    · cases hfailure
  | some e =>
    unfold fetch at run
    rw [if_neg (by simp [hfused]), bind_run] at run
    simp only [Indicator.isSet, hpending] at run
    cases run

variable (env p first w₀) in
/-- Values taken one after another from a cursor, each of them answered with success. -/
inductive Takes : List α → Cursor α → World U → Prop where
  | nil : Takes [] first w₀
  | snoc {vs : List α} {v : α} {c c' : Cursor α} {w w' : World U} (taken : Takes vs c w)
      (next : c.next p env w = .done (c', some (.ok v)) w') : Takes (vs ++ [v]) c' w'

variable (env) in
/-- The iterator raised an error when it was asked for an element that nobody has taken. -/
def RaisedAhead (c : Cursor α) (w : World U) : Prop :=
  c.pending = some .alreadyRaised ∧ c.current = none ∧
    ∃ ahead, ahead.pending = none ∧ iterNext c.iterator env ahead = .done none w

theorem next_pending (hcalm : env.Calm) (clear : c.pending = none → w.pending = none)
    (run : c.next p env w = .done (c', some (.ok v)) w') :
    (w'.pending = none ∨ RaisedAhead env c' w') ∧ (c'.pending = none → w'.pending = none) := by
  unfold next at run
  cases hpending : c.pending with
  | some f =>
    rw [hpending] at run
    cases run
  | none =>
    cases hcurrent : c.current with
    | none =>
      rw [hpending, hcurrent] at run
      cases run
    | some cached =>
      obtain ⟨element, value⟩ := cached
      rw [hpending, hcurrent] at run
      obtain ⟨_, w₁, hrelease, run⟩ := bind_eq_done.1 run
      obtain ⟨⟨c₁, failure⟩, w₂, hfetch, run⟩ := bind_eq_done.1 run
      cases run
      have hclear₁ : w₁.pending = none :=
        (View.release_calm hcalm (holding_eq_done hrelease)).trans (clear hpending)
      obtain hclear₂ | ⟨rfl, rfl, hnext⟩ := fetch_pending hclear₁ (holding_eq_done hfetch)
      · exact ⟨.inl hclear₂, fun _ => hclear₂⟩
      · exact ⟨.inr ⟨rfl, rfl, w₁, hclear₁, hnext⟩, nofun⟩

theorem Takes.pending (hcalm : env.Calm) (htakes : Takes env p first w₀ vs c w)
    (clear : w₀.pending = none) :
    (w.pending = none ∨ vs ≠ [] ∧ RaisedAhead env c w) ∧ (c.pending = none → w.pending = none) := by
  induction htakes with
  | nil => exact ⟨.inl clear, fun _ => clear⟩
  | snoc _ next ih =>
    obtain ⟨hpending, hclear⟩ := next_pending hcalm ih.2 next
    exact ⟨hpending.imp_right fun h => ⟨by simp, h⟩, hclear⟩

theorem discardCurrent_pending (hcalm : env.Calm) (hp : p.Calm env)
    (run : discardCurrent p c env w = .done c' w') : w'.pending = w.pending := by
  unfold discardCurrent at run
  cases hcurrent : c.current with
  | none =>
    rw [hcurrent] at run
    cases run
    rfl
  | some cached =>
    obtain ⟨element, v⟩ := cached
    rw [hcurrent] at run
    obtain ⟨_, w₁, hrelease, run⟩ := bind_eq_done.1 run
    obtain ⟨_, w₂, hdiscard, ⟨⟩⟩ := bind_eq_done.1 run
    have hkept := hp v w₁
    rw [hdiscard] at hkept
    exact Eq.trans hkept (View.release_calm hcalm (holding_eq_done hrelease))

theorem drop_pending (hcalm : env.Calm) (hp : p.Calm env) (run : c.drop p env w = .done () w') :
    w'.pending = w.pending := by
  obtain ⟨c', w₁, hdiscard, hrelease⟩ := bind_eq_done.1 run
  exact (View.release_calm hcalm hrelease).trans
    (discardCurrent_pending hcalm hp (holding_eq_done hdiscard))

theorem begin_clear (run : View.begin p iterable env w = .done (.ok c) w') : w'.pending = none := by
  obtain ⟨found, w₁, -, run⟩ := bind_eq_done.1 run
  cases found with
  | none =>
    obtain ⟨set, w₁, ⟨rfl, rfl⟩, run⟩ := bind_eq_done.1 run
    cases hpending : w₁.pending <;> rw [hpending] at run <;> cases run
  | some iterator =>
    obtain ⟨name, w₁, ⟨rfl, rfl⟩, run⟩ := bind_eq_done.1 run
    obtain ⟨_, w₂, ⟨_, rfl⟩, run⟩ := bind_eq_done.1 run
    obtain ⟨⟨c₁, failure⟩, w₃, hfetch, run⟩ := bind_eq_done.1 run
    cases failure with
    | some f =>
      obtain ⟨_, w₄, -, ⟨⟩⟩ := bind_eq_done.1 run
    | none =>
      cases run
      exact fetch_clear rfl (holding_eq_done hfetch)

/-- A function that answers with an error pending loses its answer, and the error shows only in what
is said about that. -/
theorem verdict_lost (hcalm : env.Calm) {name : String} {h : Handle} {e : Raised}
    {answer : Option Handle} (hpending : w.pending = some e)
    (run : verdict name (some h) env w = .done answer w') :
    answer = none ∧ w'.pending =
      some ⟨.runtimeError, s!"{name}() returned a result with an error set ({e.text})"⟩ := by
  rw [verdict_stray (by simp [hpending])] at run
  obtain ⟨_, w₁, hrelease, run⟩ := bind_eq_done.1 run
  obtain ⟨found, w₂, htake, run⟩ := bind_eq_done.1 run
  obtain ⟨rfl, rfl⟩ := Outcome.done.inj htake
  have hkept : w₁.pending = some e := (View.release_calm hcalm hrelease).trans hpending
  rw [hkept] at run
  exact failed_done run

/-- Who takes the first values of a pass and gives up the rest finds the indicator clear, unless the
iterator raised an error when the cursor looked one element further: that error is pending. So a
function that answers then is heard, but with the error pending its answer is given back, and the
call fails. -/
theorem prefix_pending (hcalm : env.Calm) (hp : p.Calm env)
    (begun : View.begin p iterable env w = .done (.ok first) w₀)
    (taken : Takes env p first w₀ vs c w₁) (dropped : c.drop p env w₁ = .done () w') :
    w'.pending = w₁.pending ∧ (∀ e, w₁.pending = some e → vs ≠ [] ∧ RaisedAhead env c w₁) ∧
    ∀ (outer : Env U) (callable arguments : Handle) (name : String) (code : CodeId)
      (hs : List Handle) (h : Handle) (start left w₂ : World U) (answer : Option Handle),
      outer.Calm → start.heap.Applies callable arguments name code hs →
      outer.hooks.call code hs (start.noting outer (.called name hs.length)) =
        .done (some h) left → left.pending = w'.pending →
      invoke callable arguments outer start = .done answer w₂ →
        match w₁.pending with
        | none => answer = some h ∧ w₂ = left
        | some e => answer = none ∧ w₂.pending =
            some ⟨.runtimeError, s!"{name}() returned a result with an error set ({e.text})"⟩ := by
  have hkept := drop_pending hcalm hp dropped
  refine ⟨hkept, fun e he => ?_, ?_⟩
  · exact (taken.pending hcalm (begin_clear begun)).1.resolve_left (by simp [he])
  · intro outer callable arguments name code hs h start left w₂ answer hcalm' happlies hbody hleft
      hinvoke
    obtain ⟨_, _, hcalled, hverdict⟩ := (invoke_eq_done happlies).1 hinvoke
    obtain ⟨rfl, rfl⟩ := Outcome.done.inj (hbody.symm.trans hcalled)
    rw [← hkept, ← hleft]
    cases hpending : left.pending with
    | some e => exact verdict_lost hcalm' hpending hverdict
    | none =>
      rw [verdict_heard hpending] at hverdict
      cases hverdict
      exact ⟨rfl, rfl⟩

def firstOf (iterable : Handle) : Act Nat (Option Handle) := do
  match ← View.begin (builtinIntake .i64) iterable with
  | .error f => guarded (.error f)
  | .ok c =>
    let (c, taken) ← c.next (builtinIntake .i64)
    c.drop (builtinIntake .i64)
    match taken with
    | some (.ok v) => some <$> alloc (.int v)
    | _ => pure none

def lateNext : Act Nat (Option Handle) := do
  match ← Act.client with
  | 0 =>
    Act.modifyClient (· + 1)
    some <$> alloc (.int 7)
  | _ =>
    raise .valueError "late"
    pure none

def lateHooks (env : Env Nat) : Hooks Nat where
  call := fun _ hs => firstOf (hs.headD default) env
  slot := fun _ _ => lateNext env
  measure := fun _ _ w => .done none w
  destroy := fun _ hs => releaseAll hs env
  toPeer := fun _ _ _ w => .done none w

def late (levels : Nat) : Env Nat := .tie (fun _ n => n) lateHooks levels

def lateWorld : World Nat where
  heap := (((Heap.empty.insert
    (.native ⟨"late", "", .drop, some .self, some (.user 0), none⟩ (some (.scripted [])))).2.insert
    (.function "first" 0)).2.insert (.tuple [some ⟨0, 0⟩])).2
  pending := none
  settings := {}
  client := 0

theorem late_calm (levels : Nat) : (late levels).Calm :=
  tie_calm (fun _ hcalm _ hs _ => releaseAll_calm hcalm hs) levels

theorem firstOf_late : ((do
      let answer ← firstOf ⟨0, 0⟩
      pure (answer.isSome, ← Indicator.get)) (late 5) lateWorld).answer? =
    some (true, some ⟨.valueError, "late"⟩) := by
  decide +kernel

theorem late_invoked : (invoke ⟨1, 0⟩ ⟨2, 0⟩ (late 6) lateWorld).answer? = some none := by
  decide +kernel

/-- A run of the function that answers has taken one value and given up the rest. -/
theorem firstOf_takes {iterable h : Handle} {env : Env Nat} {w w' : World Nat}
    (run : firstOf iterable env w = .done (some h) w') :
    ∃ first w₀ v c w₁ w₂, View.begin (builtinIntake .i64) iterable env w = .done (.ok first) w₀ ∧
      Takes env (builtinIntake .i64) first w₀ [v] c w₁ ∧
      c.drop (builtinIntake .i64) env w₁ = .done () w₂ ∧ w'.pending = w₂.pending := by
  obtain ⟨begun, w₀, hbegin, run⟩ := bind_eq_done.1 run
  cases begun with
  | error f =>
    obtain ⟨_, _, -, ⟨⟩⟩ := bind_eq_done.1 run
  | ok first =>
    obtain ⟨⟨c, taken⟩, w₁, hnext, run⟩ := bind_eq_done.1 run
    obtain ⟨_, w₂, hdrop, run⟩ := bind_eq_done.1 run
    match taken with
    | some (.ok v) =>
      obtain ⟨w₃, halloc, hkept, -⟩ := alloc_run (.int v) env w₂
      obtain ⟨_, _, halloc', ⟨⟩⟩ := bind_eq_done.1 run
      obtain ⟨-, rfl⟩ := Outcome.done.inj (halloc.symm.trans halloc')
      exact ⟨first, w₀, v, c, w₁, w₂, hbegin, .snoc .nil hnext, hdrop, hkept⟩
    | some (.error f) => cases run
    | none => cases run

theorem late_first : ∃ h w', firstOf ⟨0, 0⟩ (late 5) lateWorld = .done (some h) w' ∧
    w'.pending = some ⟨.valueError, "late"⟩ := by
  obtain ⟨_, hrun⟩ := Outcome.answer?_eq_some.1 firstOf_late
  obtain ⟨answer, w', hfirst, hrun⟩ := bind_eq_done.1 hrun
  obtain ⟨e, _, ⟨⟩, hrun⟩ := bind_eq_done.1 hrun
  obtain ⟨hsome, hpending⟩ := Prod.mk.inj (Outcome.done.inj hrun).1
  obtain ⟨h, rfl⟩ := Option.isSome_iff_exists.1 hsome
  exact ⟨h, w', hfirst, hpending⟩

theorem prefix_pending_late :
    ∃ first w₀ v c w₁ w' w₂,
      View.begin (builtinIntake .i64) ⟨0, 0⟩ (late 5) lateWorld = .done (.ok first) w₀ ∧
      Takes (late 5) (builtinIntake .i64) first w₀ [v] c w₁ ∧
      c.drop (builtinIntake .i64) (late 5) w₁ = .done () w' ∧
      w'.pending = some ⟨.valueError, "late"⟩ ∧ RaisedAhead (late 5) c w₁ ∧
      invoke ⟨1, 0⟩ ⟨2, 0⟩ (late 6) lateWorld = .done none w₂ ∧
      w₂.pending = some ⟨.runtimeError,
        "first() returned a result with an error set (ValueError: late)"⟩ := by
  obtain ⟨h, left, hfirst, hlate⟩ := late_first
  obtain ⟨first, w₀, v, c, w₁, w', hbegin, htakes, hdrop, hleft⟩ := firstOf_takes hfirst
  obtain ⟨w₂, hinvoke⟩ := Outcome.answer?_eq_some.1 late_invoked
  obtain ⟨hkept, hahead, hheard⟩ := prefix_pending (late_calm 5)
    (Intake.calm_of_no_deleter (late_calm 5) rfl) hbegin htakes hdrop
  have hpending : w₁.pending = some ⟨.valueError, "late"⟩ := by rw [← hkept, ← hleft, hlate]
  have hsaid := hheard (late 6) ⟨1, 0⟩ ⟨2, 0⟩ "first" 0 [⟨0, 0⟩] h lateWorld left w₂ none
    (late_calm 6) ⟨rfl, rfl⟩ hfirst hleft hinvoke
  rw [hpending] at hsaid
  exact ⟨first, w₀, v, c, w₁, w', w₂, hbegin, htakes, hdrop, hkept.trans hpending,
    (hahead _ hpending).2, hinvoke, hsaid.2⟩

/-- The indicator is clear, the iterator keeps to the protocol, a value is taken and the rest given
up, and the error behind that value is pending. -/
theorem prefix_leaves_error :
    lateWorld.pending = none ∧ ∃ first w₀ v c w₁ w',
      View.begin (builtinIntake .i64) ⟨0, 0⟩ (late 5) lateWorld = .done (.ok first) w₀ ∧
      Takes (late 5) (builtinIntake .i64) first w₀ [v] c w₁ ∧
      c.drop (builtinIntake .i64) (late 5) w₁ = .done () w' ∧
      w'.pending = some ⟨.valueError, "late"⟩ := by
  obtain ⟨h, left, hfirst, hlate⟩ := late_first
  obtain ⟨first, w₀, v, c, w₁, w', hbegin, htakes, hdrop, hleft⟩ := firstOf_takes hfirst
  exact ⟨rfl, first, w₀, v, c, w₁, w', hbegin, htakes, hdrop, hleft.symm.trans hlate⟩

end Cursor

end Causeway
