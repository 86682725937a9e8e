import Causeway.Proofs.ValueLedger
/-!
# Collections that fail

A collection draws its values out of an iterator, and a value that was drawn is out of the deleter's
reach. If the pass then fails, what was drawn goes to nobody: the collection forgets it. Only the
value that failed the pass, if the converter gave one, is deleted.
-/
set_option autoImplicit false

namespace Causeway

open Act

variable {U α : Type}

/-- What is left of a pass that failed after some values had been drawn. -/
structure Forgotten (f : Failure) (drawn : List α) (book : List (Fate α)) : Prop where
  converted : conversions book = drawn ++ deletions book
  deleted : (deletions book).length ≤ 1
  raised : f = .alreadyRaised → deletions book = []
  index : ∀ k, f = .of (.elementConversion k) → drawn.length = k

/-- Some values are drawn, none is deleted, and the cursor is at the next one or has met a
failure. -/
inductive Collecting (c : Cursor α) (drawn : List α) (book : List (Fate α)) : Prop where
  | going (quiet : c.pending = none) (converted : conversions book = drawn ++ c.get?.toList)
      (undeleted : deletions book = []) (position : c.current = none ∨ c.position = drawn.length)
  | failing (f : Failure) (met : c.pending = some f) (empty : c.current = none)
      (forgotten : Forgotten f drawn book)

inductive Collected : Except Failure (List α) → List (Fate α) → Prop where
  | all {vs : List α} {book : List (Fate α)} (converted : conversions book = vs)
      (undeleted : deletions book = []) : Collected (.ok vs) book
  | failed {f : Failure} {drawn : List α} {book : List (Fate α)}
      (forgotten : Forgotten f drawn book) : Collected (.error f) book

inductive DrawOutcome (drawn : List α) (book : List (Fate α)) :
    Cursor α × Option (Except Failure α) → Prop where
  | value {c : Cursor α} {v : α} (h : Collecting c (drawn ++ [v]) book) :
      DrawOutcome drawn book (c, some (.ok v))
  | failed {c : Cursor α} {f : Failure} (empty : c.current = none)
      (h : Forgotten f drawn book) : DrawOutcome drawn book (c, some (.error f))
  | ended {c : Cursor α} (empty : c.current = none) (h : Collected (.ok drawn) book) :
      DrawOutcome drawn book (c, none)

section

variable {f : Failure} {drawn : List α} {book book' : List (Fate α)} {c : Cursor α}

theorem Forgotten.of_undeleted (converted : conversions book = drawn)
    (undeleted : deletions book = []) (early : ∀ k, f ≠ .of (.elementConversion k)) :
    Forgotten f drawn book where
  converted := by rw [converted, undeleted, List.append_nil]
  deleted := by simp [undeleted]
  raised := fun _ => undeleted
  index := fun k hk => absurd hk (early k)

theorem Forgotten.of_conversion {k : Nat} (converted : conversions book = drawn ++ deletions book)
    (deleted : (deletions book).length ≤ 1) (index : k = drawn.length) :
    Forgotten (.of (.elementConversion k)) drawn book where
  converted := converted
  deleted := deleted
  raised := fun hf => by cases hf
  index := fun k hk => by
    cases hk
    exact index.symm

theorem Forgotten.released (h : Forgotten f drawn book) (gone : List Handle) :
    Forgotten f drawn (book ++ gone.map .released) where
  converted := by simpa using h.converted
  deleted := by simpa using h.deleted
  raised := by simpa using h.raised
  index := h.index

theorem Collected.released {r : Except Failure (List α)} (h : Collected r book)
    (gone : List Handle) : Collected r (book ++ gone.map .released) := by
  cases h with
  | all converted undeleted => exact .all (by simpa using converted) (by simpa using undeleted)
  | failed forgotten => exact .failed (forgotten.released gone)

/-- A fetch after the values drawn so far brings the next one, or the end of the pass. -/
theorem Fetches.collecting {r : Cursor α × Option Failure} (h : Fetches c book r book')
    (empty : c.current = none) (converted : conversions book = drawn)
    (undeleted : deletions book = []) (position : c.position = drawn.length) :
    Collecting { r.1 with pending := r.2 } drawn book' := by
  cases h with
  | @ended gone failure calm =>
    have hconverted : conversions (book ++ gone.map .released) = drawn := by simpa using converted
    have hundeleted : deletions (book ++ gone.map .released) = [] := by simpa using undeleted
    obtain rfl | rfl := calm
    · exact .going rfl (by simp [Cursor.get?, empty, converted]) hundeleted (.inl empty)
    · exact .failing _ rfl empty (.of_undeleted hconverted hundeleted fun k hk => by cases hk)
  | cached gone element v =>
    exact .going rfl (by simp [Cursor.get?, converted]) (by simp [undeleted]) (.inr position)
  | unconverted gone =>
    refine .failing _ rfl empty (.of_conversion ?_ ?_ position)
    · simp [converted, undeleted]
    · simp [undeleted]
  | rejected gone gone' element v =>
    refine .failing _ rfl empty (.of_conversion ?_ ?_ position)
    · simp [converted, undeleted]
    · simp [undeleted]

/-- After a draw the cursor is at the value behind the one that was drawn. -/
theorem Collecting.draw {r : Cursor α × Option (Except Failure α)} (h : Collecting c drawn book)
    (hr : Hands c book r book') : DrawOutcome drawn book' r := by
  cases h with
  | failing f met empty forgotten =>
    cases hr with
    | failure met' =>
      obtain rfl := Option.some.inj (met.symm.trans met')
      exact .failed empty forgotten
    | nothing quiet _ => cases met.symm.trans quiet
    | value quiet _ _ => cases met.symm.trans quiet
  | going quiet converted undeleted position =>
    cases hr with
    | failure met => cases quiet.symm.trans met
    | nothing _ empty =>
      have hall : conversions book = drawn := by simpa [Cursor.get?, empty] using converted
      exact .ended empty (.all hall undeleted)
    | value _ cached hfetch =>
      have hat : c.position = drawn.length := position.resolve_left (by simp [cached])
      refine .value (hfetch.collecting rfl ?_ ?_ ?_)
      · simpa [Cursor.get?, cached] using converted
      · simpa using undeleted
      · simp [hat]

theorem Collecting.begun (fresh : Collected (.ok []) book) (hr : Begins book (.ok c) book') :
    Collecting c [] book' := by
  cases hr with
  | begun iterator gone hfetch =>
    cases fresh.released gone with
    | all converted undeleted =>
      have hcollecting := hfetch.collecting rfl converted undeleted rfl
      have hpending : c.pending = none := hfetch.pending
      rwa [show c = { c with pending := none } by rw [← hpending]]

theorem Collected.refused (fresh : Collected (.ok []) book)
    (hr : Begins book (.error f : Except Failure (Cursor α)) book') :
    Collected (.error f) book' := by
  cases hr with
  | refused gone early =>
    cases fresh.released gone with
    | all converted undeleted =>
      exact .failed (.of_undeleted converted undeleted early)
  | failed iterator gone gone' hfetch =>
    cases fresh.released gone with
    | all converted undeleted =>
      cases hfetch.collecting rfl converted undeleted rfl with
      | going quiet _ _ _ => cases quiet
      | failing f' met _ forgotten =>
        obtain rfl := Option.some.inj met
        exact (Collected.failed forgotten).released gone'

end

section

variable {env : Env U} {p : Intake U α} {delete : α → Act U Unit}
  {w : World (U × List (Fate α))} (deletes : p.deleter = some delete)

namespace View

include deletes

theorem drawFrom_collected {c : Cursor α} {out : Array α} (h : Collecting c out.toList w.book) :
    (drawFrom (p.booking env) c out env.booking w).Settles True fun r w' =>
      Collected r w'.book := by
  have hmoves := env.booking_moves (α := α)
  refine Act.loop_settles (I := fun b w' => Collecting b.1 b.2.toList w'.book)
    (fun b w₁ h₁ => ?_) h
  obtain ⟨c, out⟩ := b
  refine (onFault_settles _ (Cursor.next_hands deletes c w₁)).bind fun r w₂ _ h₂ => ?_
  cases h₁.draw h₂ with
  | value h =>
    change Collecting _ (out.push _).toList _
    rwa [Array.toList_push]
  | @failed c f empty forgotten =>
    have hfailed : Collected (.error f) w₂.book := .failed forgotten
    refine ((Cursor.drop_moves empty).onFault.kept hfailed.released).bind fun _ w₃ _ h₃ => ?_
    exact ((Act.Moves.releaseAll hmoves _).kept h₃.released).bind fun _ w₄ _ h₄ => h₄
  | ended empty all =>
    exact ((Cursor.drop_moves empty).onFault.kept all.released).bind fun _ w₃ _ h₃ => h₃

theorem collect_collected (iterable : Handle) (fresh : Collected (.ok []) w.book) :
    (collect (p.booking env) iterable env.booking w).Settles True fun r w' =>
      Collected r w'.book := by
  refine (begin_begins deletes iterable w).bind fun r w₁ _ h₁ => ?_
  cases r with
  | error f => exact fresh.refused h₁
  | ok c => exact drawFrom_collected deletes (.begun fresh h₁)

theorem collectSized_collected (iterable : Handle) (fresh : Collected (.ok []) w.book) :
    (collectSized (p.booking env) iterable env.booking w).Settles True fun r w' =>
      Collected r w'.book := by
  have hmoves := env.booking_moves (α := α)
  refine ((Act.Moves.reads hmoves .settings).kept fresh.released).bind fun settings w₁ _ h₁ => ?_
  dsimp only
  split
  · have hroom := (Act.Moves.library hmoves
      (reserveHinted_composed (p := p.booking env) iterable)).kept h₁.released
    exact hroom.bind fun _ w₂ _ h₂ => collect_collected deletes iterable h₂
  · exact collect_collected deletes iterable h₁

/-- Of the values of a pass that fails at most the last is deleted. Those drawn before it, which are
as many as the index of a failed conversion says, are neither deleted nor handed to anyone. -/
theorem collect_forgets_drawn {iterable : Handle} {f : Failure} {w' : World (U × List (Fate α))}
    (fresh : w.book = [])
    (failed : collect (p.booking env) iterable env.booking w = .done (.error f) w' ∨
      collectSized (p.booking env) iterable env.booking w = .done (.error f) w') :
    ∃ drawn, Forgotten f drawn w'.book := by
  have hfresh : Collected (.ok []) w.book := by
    rw [fresh]
    exact .all rfl rfl
  have hcollected : Collected (.error f) w'.book := by
    obtain run | run := failed
    · exact (collect_collected deletes iterable hfresh).holds run
    · exact (collectSized_collected deletes iterable hfresh).holds run
  cases hcollected with
  | failed forgotten => exact ⟨_, forgotten⟩

end View

end

namespace View

def oneAndText : World (Unit × List (Fate Int64)) where
  heap := (((Heap.empty.insert (.int 1)).2.insert (.str "x")).2.insert
    (.list [⟨0, 0⟩, ⟨1, 0⟩])).2
  pending := none
  settings := {}
  client := ((), [])

theorem collect_oneAndText : ((do
      let r ← collect (disposing.booking plain) ⟨2, 0⟩
      pure (r, (← Act.client).2)) plain.booking oneAndText).answer? =
    some (.error (.of (.elementConversion 1)),
      [.converted ⟨0, 0⟩ 1, .released ⟨0, 0⟩, .released ⟨1, 0⟩, .released ⟨3, 0⟩]) := by
  decide +kernel

theorem collect_forgets_drawn_one :
    ∃ w', collect (disposing.booking plain) ⟨2, 0⟩ plain.booking oneAndText =
        .done (.error (.of (.elementConversion 1))) w' ∧
      ∃ drawn, Forgotten (.of (.elementConversion 1)) drawn w'.book := by
  obtain ⟨_, hrun⟩ := Outcome.answer?_eq_some.1 collect_oneAndText
  obtain ⟨r, w', hcollect, hrun⟩ := bind_eq_done.1 hrun
  obtain ⟨rfl, -⟩ := Prod.mk.inj (Outcome.done.inj hrun).1
  exact ⟨w', hcollect, collect_forgets_drawn rfl rfl (.inl hcollect)⟩

/-- The value is converted before the string fails the pass, and is not deleted. -/
theorem collect_keeps_from_deleter :
    ∃ w', collect (disposing.booking plain) ⟨2, 0⟩ plain.booking oneAndText =
        .done (.error (.of (.elementConversion 1))) w' ∧
      conversions w'.book = [1] ∧ deletions w'.book = [] := by
  obtain ⟨_, hrun⟩ := Outcome.answer?_eq_some.1 collect_oneAndText
  obtain ⟨r, w', hcollect, hrun⟩ := bind_eq_done.1 hrun
  obtain ⟨rfl, hbook⟩ := Prod.mk.inj (Outcome.done.inj hrun).1
  refine ⟨w', hcollect, ?_, ?_⟩
  · exact (congrArg conversions hbook).trans rfl
  · exact (congrArg deletions hbook).trans rfl

end View

end Causeway
