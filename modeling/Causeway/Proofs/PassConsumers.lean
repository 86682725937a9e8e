import Causeway.Proofs.ReferencePass
import Causeway.Convert.Inward
import Mathlib.Data.Setoid.Basic
/-!
# Whole passes, by whatever consumer

A cursor looks one element ahead, so a consumer is always a pull in front of what it has handed out.
What it holds between rounds is the last pull: an element with its value, or an ending. A loop over
`next` hands the value out after the next pull and finds the ending a round later; a loop that
advances finds a failure in the round of the value before.
-/
set_option autoImplicit false

namespace Causeway

open Act

variable {U α β γ σ : Type}

/-- Values own nothing of the peer's, their conversion sees no more than the peer, and discarding
one is nothing to the peer. -/
structure Intake.Discreet (sight : Setoid U) (env : Env U) (p : Intake U α) : Prop where
  units : ∀ v, p.units v = []
  convert : ∀ h, (p.convert h).Respects sight env
  deleter : ∀ delete, p.deleter = some delete → ∀ v, (delete v).Inert sight env ()

namespace View

variable {sight : Setoid U} {env : Env U} {p : Intake U α} {it iterable : Handle}
  {w w₁ w' w₁' : World U} {x : Pull α} {index : Nat} {vs : List α} {e : Ending}

def Pull.cursor (x : Pull α) (it : Handle) (index : Nat) : Cursor α :=
  match x with
  | item element v => ⟨it, some (element, v), index, false, none⟩
  | stop _ => ⟨it, none, index, true, none⟩

def Pull.owing (x : Pull α) (it : Handle) (index : Nat) : Cursor α :=
  { x.cursor it index with pending := x.failure? }

theorem Pull.owing_eq (hx : x.failure? = none) : x.owing it index = x.cursor it index := by
  cases x <;> simp [Pull.owing, Pull.cursor, hx]

theorem discard_inert (hp : p.Discreet sight env) (v : α) : (p.discard v).Inert sight env () := by
  unfold Intake.discard
  cases hdelete : p.deleter with
  | some delete => exact hp.deleter delete hdelete v
  | none =>
    rw [hp.units]
    exact fun w => ⟨w, rfl, .refl w⟩

theorem fetch_matches (henv : env.Respects sight) (hp : p.Discreet sight env)
    (hw : w.Alike sight w') (clear : w.pending = none) :
    (Cursor.fetch p ⟨it, none, index, false, none⟩ env w).Matches sight
      (fun r x => r = (x.cursor it index, x.failure?)) (pull p.convert it index env w') := by
  unfold Cursor.fetch
  rw [if_neg Bool.false_ne_true, bind_run]
  simp only [Indicator.isSet, clear, Option.isSome_none]
  rw [if_neg Bool.false_ne_true]
  refine (iterNext_respects henv it w w' hw).bind ?_
  rintro found _ w₁ w₁' - - rfl hw₁
  cases found with
  | none =>
    simp only [bind_run, Indicator.isSet, Indicator.get, hw₁.pending]
    cases w₁'.pending with
    | some e => exact ⟨rfl, hw₁⟩
    | none => exact ⟨rfl, (Respects.emit henv _ _ _ hw₁).2⟩
  | some element =>
    refine (hp.convert element w₁ w₁' hw₁).onFault.bind ?_
    rintro out _ w₂ w₂' - - rfl hw₂
    -- what fails to convert is given up, whether or not there is a value to discard
    have hrefuse (out : Option α) : ((do
          holding [element] (out.elim (pure ()) p.discard)
          release element
          Indicator.clear
          Act.emit (.conversionFailed .element index)
          pure (⟨it, none, index, true, none⟩, some (.of (.elementConversion index))) :
            Act U (Cursor α × Option Failure)) env w₂).Matches sight
        (fun r x => r = (x.cursor it index, x.failure?)) (refuse element index env w₂') := by
      have hdiscard : (out.elim (pure ()) p.discard).Inert sight env () := by
        cases out with
        | some v => exact discard_inert hp v
        | none => exact fun w => ⟨w, rfl, .refl w⟩
      refine (hdiscard.onFault _).matches hw₂ fun w₃ hw₃ => ?_
      refine (henv.release element w₃ w₂' hw₃).bind fun _ _ w₄ w₄' _ _ _ hw₄ => ?_
      refine (clear_respects henv w₄ w₄' hw₄).bind fun _ _ w₅ w₅' _ _ _ hw₅ => ?_
      exact ⟨rfl, (Respects.emit henv _ _ _ hw₅).2⟩
    simp only [bind_run, Indicator.isSet, hw₂.pending]
    cases out with
    | none => exact hrefuse none
    | some v =>
      cases w₂'.pending with
      | some e => exact hrefuse (some v)
      | none => exact ⟨rfl, hw₂⟩

theorem fetch_stray {e : Raised} (hpending : w.pending = some e) :
    Cursor.fetch p ⟨it, none, index, false, none⟩ env w =
      .done (⟨it, none, index, true, none⟩, some .alreadyRaised) w := by
  unfold Cursor.fetch
  rw [if_neg Bool.false_ne_true, bind_run]
  simp only [Indicator.isSet, hpending]
  rfl

theorem drop_matches {c : Cursor α} (henv : env.Respects sight) (hc : c.current = none)
    (hw : w.Alike sight w') :
    (c.drop p env w).Matches sight (fun _ _ => True) (release c.iterator env w') := by
  obtain ⟨iterator, current, position, fused, pending⟩ := c
  cases hc
  exact (henv.release iterator w w' hw).mono fun _ _ _ => trivial

theorem next_matches (henv : env.Respects sight) (hcalm : env.Calm) (hp : p.Discreet sight env)
    {element : Handle} {v : α} (hw : w.Alike sight w') (clear : w.pending = none) :
    (((Pull.item element v).cursor it index).next p env w).Matches sight
      (fun r x => r = (x.owing it (index + 1), some (.ok v)))
      ((do
        release element
        pull p.convert it (index + 1)) env w') := by
  refine (henv.release element w w' hw).onFault.bind fun _ _ w₁ w₁' _ hrun _ hw₁ => ?_
  have clear₁ : w₁.pending = none := by
    rw [hw₁.pending, release_calm hcalm hrun, ← hw.pending, clear]
  refine (fetch_matches henv hp hw₁ clear₁).onFault.after ?_
  rintro _ x w₂ w₂' - rfl hw₂
  exact ⟨rfl, hw₂⟩

theorem next_stop :
    ((Pull.stop e).owing it index).next p env w =
      .done ((Pull.stop e).cursor it index, e.failure?.map .error) w := by
  rw [show (Pull.stop e : Pull α).owing it index = ⟨it, none, index, true, e.failure?⟩ from rfl]
  cases e.failure? <;> rfl

theorem advance_matches (henv : env.Respects sight) (hcalm : env.Calm) (hp : p.Discreet sight env)
    (it element : Handle) (v : α) (index : Nat) (hw : w.Alike sight w') (clear : w.pending = none) :
    (((Pull.item element v).cursor it index).advance p env w).Matches sight
      (fun r x => r = (x.cursor it (index + 1), x.failure?))
      ((do
        release element
        pull p.convert it (index + 1)) env w') := by
  have hdiscarded : (Cursor.discardCurrent p ((Pull.item element v).cursor it index) env w).Matches
      sight (fun c _ => c = ⟨it, none, index, false, none⟩) (release element env w') := by
    have hrelease : (release element env w).Matches sight _ _ := henv.release element w w' hw
    refine hrelease.onFault.after fun _ _ w₁ w₁' _ _ hw₁ => ?_
    exact (discard_inert hp v).matches hw₁ fun w₂ hw₂ => ⟨rfl, hw₂⟩
  refine hdiscarded.bind ?_
  rintro _ _ w₁ w₁' _ hrun rfl hw₁
  refine fetch_matches henv hp hw₁ ?_
  rw [hw₁.pending, release_calm hcalm hrun, ← hw.pending, clear]

/-- Goes on from a pull, unless it has met an ending that ends the pass at once. -/
def settle (early : Ending → Bool) (it : Handle) (x : Pull α) : Act U (Ending ⊕ Pull α) :=
  match x with
  | .stop e =>
    if early e then do
      release it
      pure (.inl e)
    else pure (.inr x)
  | .item _ _ => pure (.inr x)

theorem settle_early {early : Ending → Bool} (hearly : early e = true) :
    (settle early it (.stop e) : Act U (Ending ⊕ Pull α)) = (do
      release it
      pure (.inl e)) :=
  if_pos hearly

theorem settle_later {early : Ending → Bool} (hlater : ∀ e, x = .stop e → early e = false) :
    (settle early it x : Act U (Ending ⊕ Pull α)) = pure (.inr x) := by
  cases x with
  | item element v => rfl
  | stop e => exact if_neg (by simp [hlater e rfl])

theorem settle_done {early : Ending → Bool} {y : Ending ⊕ Pull α} :
    settle early it x env w = .done y w' ↔
      (∃ e, x = .stop e ∧ early e = true ∧ release it env w = .done () w' ∧ y = .inl e) ∨
      ((∀ e, x = .stop e → early e = false) ∧ w' = w ∧ y = .inr x) := by
  by_cases hnow : ∃ e, x = .stop e ∧ early e = true
  · obtain ⟨e, rfl, hearly⟩ := hnow
    rw [settle_early hearly, bind_eq_done]
    constructor
    · rintro ⟨_, _, hrelease, ⟨rfl, rfl⟩⟩
      exact .inl ⟨e, rfl, hearly, hrelease, rfl⟩
    · rintro (⟨_, ⟨⟩, _, hrelease, rfl⟩ | ⟨hlater, _⟩)
      · exact ⟨(), w', hrelease, rfl⟩
      · simp [hlater e rfl] at hearly
  · have hlater : ∀ e, x = .stop e → early e = false := fun e hx =>
      Bool.eq_false_iff.2 fun hearly => hnow ⟨e, hx, hearly⟩
    rw [settle_later hlater]
    constructor
    · rintro ⟨rfl, rfl⟩
      exact .inr ⟨hlater, rfl, rfl⟩
    · rintro (⟨e, hx, hearly, _⟩ | ⟨_, rfl, rfl⟩)
      · exact (hnow ⟨e, hx, hearly⟩).elim
      · rfl

/-- A round of a loop against a round of the reference: the state that goes on holds what was
pulled, and the answer is the one for the values seen. -/
def Turned (At : β → Pull α → Nat → List α → Prop) (answer : List α → Ending → γ) (index : Nat)
    (seen : List α) : β ⊕ γ → Ending ⊕ Pull α → Prop
  | .inl b, .inr x => At b x index seen
  | .inr c, .inl e => c = answer seen e
  | _, _ => False

/-- The rounds of a loop are those of the reference, but that some endings show one round earlier.
`At` says what the state of the loop holds between rounds. -/
structure Tracks (sight : Setoid U) (env : Env U) (convert : Handle → Act U (Option α))
    (it : Handle) (early : Ending → Bool) (body : β → Act U (β ⊕ γ))
    (At : β → Pull α → Nat → List α → Prop) (answer : List α → Ending → γ) : Prop where
  item : ∀ {b element v index seen w w'}, At b (.item element v) index seen →
    w.Alike sight w' → w.pending = none →
    (body b env w).Matches sight (Turned At answer (index + 1) (seen ++ [v]))
      ((do
        release element
        let x ← pull convert it (index + 1)
        settle early it x) env w')
  stop : ∀ {b e index seen w w'}, At b (.stop e) index seen → w.Alike sight w' →
    (body b env w).Matches sight (fun r _ => r = .inr (answer seen e)) (release it env w')

variable {convert : Handle → Act U (Option α)} {early : Ending → Bool}
  {body : β → Act U (β ⊕ γ)} {At : β → Pull α → Nat → List α → Prop}
  {answer : List α → Ending → γ} {b : β} {seen : List α}

theorem Tracks.returns (ht : Tracks sight env convert it early body At answer)
    (hrest : Rest convert env it x index w' vs e w₁') (hb : At b x index seen)
    (hw : w.Alike sight w') (hx : x.Fits index w'.pending) {n : Nat} (hn : vs.length < n) :
    ∃ w₁, loopFor body n b env w = .done (answer (seen ++ vs) e) w₁ ∧ w₁.Alike sight w₁' := by
  obtain ⟨n, rfl⟩ : ∃ m, n = m + 1 := ⟨n - 1, by omega⟩
  induction hrest generalizing n b w seen with
  | stop dropped =>
    obtain ⟨r, w₁, hbody, rfl, hback⟩ := (ht.stop hb hw).backward dropped
    refine ⟨w₁, loopFor_succ_done.2 (.inr ?_), hback⟩
    rw [hbody, List.append_nil]
  | @item element v index w' w₂' w₁' x vs e pulled rest ih =>
    obtain ⟨_, w₃, hrelease, hpull⟩ := bind_eq_done.1 pulled
    have hround := ht.item hb hw (hw.pending.trans hx)
    by_cases hearly : ∃ e', x = .stop e' ∧ early e' = true
    · obtain ⟨e', rfl, hearly⟩ := hearly
      cases rest with
      | stop dropped =>
      obtain ⟨r, w₁, hbody, hturned, hback⟩ := hround.backward (bind_eq_done.2 ⟨_, w₃, hrelease,
        bind_eq_done.2 ⟨_, w₂', hpull, settle_done.2 (.inl ⟨_, rfl, hearly, dropped, rfl⟩)⟩⟩)
      cases r with
      | inl b' => exact hturned.elim
      | inr c =>
        cases hturned
        exact ⟨w₁, loopFor_succ_done.2 (.inr hbody), hback⟩
    · have hlater : ∀ e', x = .stop e' → early e' = false := fun e' hx =>
        Bool.eq_false_iff.2 fun h => hearly ⟨e', hx, h⟩
      obtain ⟨r, w₁, hbody, hturned, hback⟩ := hround.backward (bind_eq_done.2 ⟨_, w₃, hrelease,
        bind_eq_done.2 ⟨_, w₂', hpull, settle_done.2 (.inr ⟨hlater, rfl, rfl⟩)⟩⟩)
      cases r with
      | inr c => exact hturned.elim
      | inl b' =>
        obtain ⟨m, rfl⟩ : ∃ m, n = m + 1 := ⟨n - 1, by rw [List.length_cons] at hn; omega⟩
        rw [List.length_cons, Nat.add_lt_add_iff_right] at hn
        obtain ⟨w₂, hloop, hback⟩ := ih hturned hback (pull_fits hpull) m hn
        refine ⟨w₂, loopFor_succ_done.2 (.inl ⟨b', w₁, hbody, ?_⟩), hback⟩
        rw [hloop, List.append_assoc, List.singleton_append]

theorem Tracks.only (ht : Tracks sight env convert it early body At answer) {n : Nat} {c : γ}
    (hrun : loopFor body n b env w = .done c w₁) (hb : At b x index seen)
    (hw : w.Alike sight w') (hx : x.Fits index w'.pending) :
    ∃ vs e w₁', Rest convert env it x index w' vs e w₁' ∧ c = answer (seen ++ vs) e ∧
      w₁.Alike sight w₁' := by
  induction n generalizing b x index seen w w' with
  | zero => cases hrun
  | succ n ih =>
    cases x with
    | stop e =>
      obtain ⟨b', w₂, hbody, _⟩ | hbody := loopFor_succ_done.1 hrun
      · obtain ⟨_, _, _, hr, _⟩ := (ht.stop hb hw).forward hbody
        cases hr
      · obtain ⟨_, w₁', hdropped, hr, halike⟩ := (ht.stop hb hw).forward hbody
        cases hr
        exact ⟨[], e, w₁', .stop hdropped, by rw [List.append_nil], halike⟩
    | item element v =>
      have hround := ht.item hb hw (hw.pending.trans hx)
      obtain ⟨b', w₂, hbody, hloop⟩ | hbody := loopFor_succ_done.1 hrun
      all_goals
        obtain ⟨y, w₂', hreference, hturned, halike⟩ := hround.forward hbody
        obtain ⟨_, w₃, hrelease, hreference⟩ := bind_eq_done.1 hreference
        obtain ⟨x, w₄, hpull, hsettle⟩ := bind_eq_done.1 hreference
        have pulled : (do
            release element
            pull convert it (index + 1)) env w' = .done x w₄ :=
          bind_eq_done.2 ⟨_, w₃, hrelease, hpull⟩
        obtain ⟨e, rfl, _, dropped, rfl⟩ | ⟨_, rfl, rfl⟩ := settle_done.1 hsettle
      · exact hturned.elim
      · obtain ⟨vs, e, w₁', hrest, rfl, halike⟩ := ih hloop hturned halike (pull_fits hpull)
        exact ⟨v :: vs, e, w₁', .item pulled hrest, by simp, halike⟩
      · cases hturned
        exact ⟨[v], e, w₂', .item pulled (.stop dropped), rfl, halike⟩
      · exact hturned.elim

/-- From `w` a consumer comes back as a pass from `w'` does, with this answer and given rounds
enough, and in no other way. -/
structure Follows (sight : Setoid U) (env : Env U) (convert : Handle → Act U (Option α))
    (iterable : Handle) (w w' : World U) (act : Act U γ) (answer : List α → Ending → γ) : Prop where
  returns : ∀ {vs e w₁'}, Pass convert env iterable w' vs e w₁' → vs.length < env.budget →
    ∃ w₁, act env w = .done (answer vs e) w₁ ∧ w₁.Alike sight w₁'
  only : ∀ {c w₁}, act env w = .done c w₁ →
    ∃ vs e w₁', Pass convert env iterable w' vs e w₁' ∧ c = answer vs e ∧ w₁.Alike sight w₁'

def Ending.fails (e : Ending) : Bool := e.failure?.isSome

theorem goes_on (hx : x.failure? = none) (e : Ending) (h : x = .stop e) : e.fails = false := by
  subst h
  exact congrArg Option.isSome hx

def beginning (convert : Handle → Act U (Option α)) (iterable : Handle) :
    Act U (Ending ⊕ Handle × Pull α) := do
  match ← opening iterable with
  | .inl e => pure (.inl e)
  | .inr it =>
    match ← settle Ending.fails it (← pull convert it 0) with
    | .inl e => pure (.inl e)
    | .inr x => pure (.inr (it, x))

/-- What begins: a failure for an ending that fails, and else the cursor of the first pull. -/
def Begun : Except Failure (Cursor α) → Ending ⊕ Handle × Pull α → Prop
  | .error f, .inl e => e.failure? = some f
  | .ok c, .inr (it, x) => c = x.cursor it 0 ∧ x.failure? = none
  | _, _ => False

theorem begin_matches (henv : env.Respects sight) (hp : p.Discreet sight env) (iterable : Handle)
    (hw : w.Alike sight w') :
    (begin p iterable env w).Matches sight Begun (beginning p.convert iterable env w') := by
  unfold beginning opening
  rw [bind_assoc_run]
  refine (getIter_respects henv iterable w w' hw).bind ?_
  rintro found _ w₁ w₁' - - rfl hw₁
  cases found with
  | none =>
    simp only [bind_run, Indicator.isSet, Indicator.get, hw₁.pending]
    cases w₁'.pending with
    | some e => exact ⟨rfl, hw₁⟩
    | none => exact ⟨rfl, hw₁⟩
  | some it =>
    dsimp only
    rw [bind_assoc_run]
    refine (typeNameOf_respects iterable w₁ w₁' hw₁).bind ?_
    rintro name _ w₂ w₂' - - rfl hw₂
    rw [bind_assoc_run]
    refine (Respects.emit henv _ w₂ w₂' hw₂).bind ?_
    rintro _ _ w₃ w₃' - - - hw₃
    rw [bind_assoc_run, bind_run _ _ env w₃']
    dsimp only [Indicator.get]
    cases hpending : w₃'.pending with
    | some e =>
      dsimp only
      rw [bind_assoc_run, bind_run _ _ env w₃]
      have hstray : holding [it] (Cursor.fetch p (.start it)) env w₃ =
          .done (⟨it, none, 0, true, none⟩, some .alreadyRaised) w₃ := by
        unfold holding Act.onFault Cursor.start
        rw [fetch_stray (hw₃.pending.trans hpending)]
      rw [hstray]
      refine Outcome.Matches.bind (drop_matches henv rfl hw₃) fun _ _ w₄ w₄' _ _ _ hw₄ => ?_
      exact ⟨rfl, hw₄⟩
    | none =>
      have hfetch : (holding [it] (Cursor.fetch p (.start it)) env w₃).Matches sight _ _ :=
        (fetch_matches henv hp hw₃ (hw₃.pending.trans hpending)).onFault
      refine hfetch.bind ?_
      rintro _ x w₄ w₄' - - rfl hw₄
      cases hx : x.failure? with
      | none =>
        rw [settle_later (goes_on hx)]
        exact ⟨⟨rfl, hx⟩, hw₄⟩
      | some f =>
        cases x with
        | item element v => cases hx
        | stop e =>
          have hfails : e.fails = true := congrArg Option.isSome (show e.failure? = some f from hx)
          rw [settle_early hfails, bind_assoc_run]
          refine Outcome.Matches.bind (drop_matches henv rfl hw₄) fun _ _ w₅ w₅' _ _ _ hw₅ => ?_
          exact ⟨hx, hw₅⟩

/-- A consumer that begins and then loops follows the pass. -/
theorem loop_follows (henv : env.Respects sight) (hp : p.Discreet sight env)
    (hw : w.Alike sight w') (first : Cursor α → β) (early : Ending → Bool)
    (At : Handle → β → Pull α → Nat → List α → Prop) {fail : Failure → γ}
    (ht : ∀ it, Tracks sight env p.convert it early body (At it) answer)
    (hfail : ∀ e f, e.failure? = some f → fail f = answer [] e)
    (hfirst : ∀ it x, x.failure? = none → At it (first (x.cursor it 0)) x 0 []) :
    Follows sight env p.convert iterable w w' (do
      match ← begin p iterable with
      | .error f => pure (fail f)
      | .ok c => Act.loop body (first c)) answer where
  returns := by
    intro vs e w₁' hpass hbudget
    have hbegin := begin_matches henv hp iterable hw
    -- an ending that fails on the first pull leaves no cursor to loop with
    have hfailed (hend : beginning p.convert iterable env w' = .done (.inl e) w₁') :
        ∃ w₁, (do
          match ← begin p iterable with
          | .error f => pure (fail f)
          | .ok c => Act.loop body (first c)) env w = .done (answer [] e) w₁ ∧
            w₁.Alike sight w₁' := by
      obtain ⟨r, w₁, hrun, hbegun, halike⟩ := hbegin.backward hend
      cases r with
      | ok c => exact hbegun.elim
      | error f => exact ⟨w₁, bind_eq_done.2 ⟨_, w₁, hrun, by rw [← hfail e f hbegun]; rfl⟩, halike⟩
    cases hpass with
    | refused opened => exact hfailed (bind_eq_done.2 ⟨_, _, opened, rfl⟩)
    | @started it _ _ _ _ x _ _ opened pulled rest =>
      by_cases hnow : ∃ e', x = .stop e' ∧ e'.fails = true
      · obtain ⟨e', rfl, hfails⟩ := hnow
        cases rest with
        | stop dropped =>
        exact hfailed (bind_eq_done.2 ⟨_, _, opened, bind_eq_done.2 ⟨_, _, pulled,
          bind_eq_done.2 ⟨_, _, settle_done.2 (.inl ⟨_, rfl, hfails, dropped, rfl⟩), rfl⟩⟩⟩)
      · have hlater : ∀ e', x = .stop e' → e'.fails = false := fun e' hx =>
          Bool.eq_false_iff.2 fun h => hnow ⟨e', hx, h⟩
        obtain ⟨r, w₃, hrun, hbegun, halike⟩ := hbegin.backward
          (bind_eq_done.2 ⟨_, _, opened, bind_eq_done.2 ⟨_, _, pulled,
            bind_eq_done.2 ⟨_, _, settle_done.2 (.inr ⟨hlater, rfl, rfl⟩), rfl⟩⟩⟩)
        cases r with
        | error f => exact hbegun.elim
        | ok c =>
          obtain ⟨rfl, hx⟩ := hbegun
          obtain ⟨w₄, hloop, halike⟩ :=
            (ht it).returns rest (hfirst it x hx) halike (pull_fits pulled) hbudget
          exact ⟨w₄, bind_eq_done.2 ⟨_, w₃, hrun, hloop⟩, halike⟩
  only := by
    intro c w₁ hrun
    obtain ⟨r, w₂, hbegin, hrun⟩ := bind_eq_done.1 hrun
    obtain ⟨y, w₂', hbeginning, hbegun, halike⟩ :=
      (begin_matches henv hp iterable hw).forward hbegin
    obtain ⟨opened, w₃, hopening, hbeginning⟩ := bind_eq_done.1 hbeginning
    cases opened with
    | inl e =>
      obtain ⟨rfl, rfl⟩ := hbeginning
      cases r with
      | ok c => exact hbegun.elim
      | error f =>
        obtain ⟨rfl, rfl⟩ := hrun
        exact ⟨[], e, _, .refused hopening, hfail e f hbegun, halike⟩
    | inr it =>
      obtain ⟨x, w₄, hpull, hbeginning⟩ := bind_eq_done.1 hbeginning
      obtain ⟨y, w₅, hsettle, hbeginning⟩ := bind_eq_done.1 hbeginning
      obtain ⟨e, rfl, _, dropped, rfl⟩ | ⟨_, rfl, rfl⟩ := settle_done.1 hsettle
      · obtain ⟨rfl, rfl⟩ := hbeginning
        cases r with
        | ok c => exact hbegun.elim
        | error f =>
          obtain ⟨rfl, rfl⟩ := hrun
          exact ⟨[], e, _, .started hopening hpull (.stop dropped), hfail e f hbegun, halike⟩
      · obtain ⟨rfl, rfl⟩ := hbeginning
        cases r with
        | error f => exact hbegun.elim
        | ok c =>
          obtain ⟨rfl, hx⟩ := hbegun
          obtain ⟨vs, e, w₁', hrest, rfl, halike⟩ :=
            (ht it).only hrun (hfirst it x hx) halike (pull_fits hpull)
          exact ⟨vs, e, w₁', .started hopening hpull hrest, rfl, halike⟩

/-- What such a loop holds: the lookahead, its failure deferred, and what came of the values. -/
def Handing (made : List α → σ → Prop) (it : Handle) (b : Cursor α × σ) (x : Pull α) (index : Nat)
    (seen : List α) : Prop :=
  b.1 = x.owing it index ∧ made seen b.2

theorem collect_follows (henv : env.Respects sight) (hcalm : env.Calm) (hp : p.Discreet sight env)
    (iterable : Handle) (hw : w.Alike sight w') :
    Follows sight env p.convert iterable w w' (collect p iterable) fun vs e => e.result vs := by
  unfold collect drawFrom
  refine loop_follows henv hp hw (fun c => (c, #[])) (fun _ => false)
    (Handing fun seen out => out.toList = seen) (fun it => ⟨?_, ?_⟩) ?_ ?_
  · rintro ⟨_, out⟩ element v index _ w w' ⟨rfl, rfl⟩ hw clear
    rw [← bind_assoc_run]
    refine (next_matches henv hcalm hp hw clear).onFault.bind ?_
    rintro _ x w₁ w₁' - - rfl hw₁
    rw [settle_later fun _ _ => rfl]
    exact ⟨⟨rfl, Array.toList_push⟩, hw₁⟩
  · rintro ⟨_, out⟩ e index _ w w' ⟨rfl, rfl⟩ hw
    have hunits : out.toList.flatMap p.units = [] := List.flatMap_eq_nil_iff.2 fun v _ => hp.units v
    have hdrop (units : List Handle) : (holding units (((Pull.stop e).cursor it index).drop p) env
        w).Matches sight (fun _ _ => True) (release it env w') := (drop_matches henv rfl hw).onFault
    dsimp only
    rw [bind_run, onFault_done next_stop]
    cases hfailure : e.failure? with
    | some f =>
      refine (hdrop _).after fun _ _ w₁ w₁' _ _ hw₁ => ?_
      rw [hunits]
      exact ⟨by rw [Ending.result, hfailure], hw₁⟩
    | none =>
      refine (hdrop _).after fun _ _ w₁ w₁' _ _ hw₁ => ?_
      exact ⟨by rw [Ending.result, hfailure], hw₁⟩
  · intro e f h
    rw [Ending.result, h]
  · intro it x hx
    exact ⟨(Pull.owing_eq hx).symm, rfl⟩

def drain (p : Intake U α) (take : σ → α → Act U σ) (iterable : Handle) (s : σ) :
    Act U (σ × Option Failure) := do
  match ← begin p iterable with
  | .error f => pure (s, some f)
  | .ok c =>
    Act.loop
      (fun (c, s) => do
        match ← c.next p with
        | (c, some (.ok v)) => pure (.inl (c, ← take s v))
        | (c, some (.error f)) =>
          c.drop p
          pure (.inr (s, some f))
        | (c, none) =>
          c.drop p
          pure (.inr (s, none)))
      (c, s)

variable {visit : σ → α → Act U σ} {f : σ → α → σ} {s : σ}

theorem drain_follows (henv : env.Respects sight) (hcalm : env.Calm) (hp : p.Discreet sight env)
    (htake : ∀ s v, (visit s v).Inert sight env (f s v)) (hw : w.Alike sight w') :
    Follows sight env p.convert iterable w w' (drain p visit iterable s)
      fun vs e => (vs.foldl f s, e.failure?) := by
  unfold drain
  refine loop_follows henv hp hw (fun c => (c, s)) (fun _ => false)
    (Handing fun seen r => r = seen.foldl f s) (fun it => ⟨?_, ?_⟩) ?_ ?_
  · rintro ⟨_, _⟩ element v index seen w w' ⟨rfl, rfl⟩ hw clear
    rw [← bind_assoc_run]
    refine (next_matches henv hcalm hp hw clear).bind ?_
    rintro _ x w₁ w₁' - - rfl hw₁
    rw [settle_later fun _ _ => rfl]
    exact (htake _ v).matches hw₁ fun w₂ hw₂ => ⟨⟨rfl, by simp⟩, hw₂⟩
  · rintro ⟨_, _⟩ e index seen w w' ⟨rfl, rfl⟩ hw
    have hdrop := drop_matches (p := p) henv
      (c := (Pull.stop e : Pull α).cursor it index) rfl hw
    dsimp only
    rw [bind_run, next_stop]
    cases e.failure? <;> exact hdrop.after fun _ _ w₁ w₁' _ _ hw₁ => ⟨rfl, hw₁⟩
  · intro e f h
    rw [h]
    rfl
  · intro it x hx
    exact ⟨(Pull.owing_eq hx).symm, rfl⟩

def Looking (f : σ → α → σ) (s : σ) (it : Handle) (b : Cursor α × σ) (x : Pull α) (index : Nat)
    (seen : List α) : Prop :=
  b = (x.cursor it index, seen.foldl f s) ∧ x.failure? = none

theorem advance_turns (henv : env.Respects sight) {element : Handle}
    {act : Act U (Cursor α × Option Failure)} {go : Cursor α → β} {stop : Failure → γ}
    (hact : (act env w).Matches sight (fun r x => r = (x.cursor it (index + 1), x.failure?))
      ((do
        release element
        pull convert it (index + 1)) env w'))
    (hgo : ∀ x, x.failure? = none → At (go (x.cursor it (index + 1))) x (index + 1) seen)
    (hstop : ∀ e f, e.failure? = some f → stop f = answer seen e) :
    ((do
      match ← act with
      | (c, none) => pure (.inl (go c))
      | (c, some f) =>
        c.drop p
        pure (.inr (stop f)) : Act U (β ⊕ γ)) env w).Matches sight
      (Turned At answer (index + 1) seen)
      ((do
        release element
        let x ← pull convert it (index + 1)
        settle Ending.fails it x) env w') := by
  rw [← bind_assoc_run]
  refine hact.bind ?_
  rintro _ x w₁ w₁' - - rfl hw₁
  cases hx : x.failure? with
  | none =>
    rw [settle_later (goes_on hx)]
    exact ⟨hgo x hx, hw₁⟩
  | some failure =>
    cases x with
    | item element v => cases hx
    | stop e =>
      have hfails : e.fails = true := congrArg Option.isSome (show e.failure? = some failure from hx)
      rw [settle_early hfails]
      refine Outcome.Matches.bind (drop_matches henv rfl hw₁) fun _ _ w₂ w₂' _ _ _ hw₂ => ?_
      exact ⟨hstop e failure hx, hw₂⟩

theorem tryForEach_follows (henv : env.Respects sight) (hcalm : env.Calm)
    (hp : p.Discreet sight env) (hvisit : ∀ s v, (visit s v).Inert sight env (f s v))
    (hw : w.Alike sight w') :
    Follows sight env p.convert iterable w w' (tryForEach p visit iterable s)
      fun vs e => (e.result (), vs.foldl f s) := by
  unfold tryForEach
  refine loop_follows henv hp hw (fun c => (c, s)) Ending.fails (Looking f s)
    (fun it => ⟨?_, ?_⟩) ?_ ?_
  · rintro _ element v index seen w w' ⟨rfl, hx⟩ hw clear
    refine ((hvisit _ v).onFault _).matches hw fun w₁ hw₁ => ?_
    have hadvance := advance_matches henv hcalm hp it element v index hw₁
      (hw₁.pending.trans (hw.pending.symm.trans clear))
    refine advance_turns henv hadvance.onFault ?_ ?_
    · exact fun x hx => ⟨by simp, hx⟩
    · intro e failure h
      simp [Ending.result, h]
  · rintro _ e index seen w w' ⟨rfl, hx⟩ hw
    have hdrop := drop_matches (p := p) henv
      (c := (Pull.stop e : Pull α).cursor it index) rfl hw
    refine hdrop.after fun _ _ w₁ w₁' _ _ hw₁ => ⟨?_, hw₁⟩
    rw [Ending.result, show e.failure? = none from hx]
  · intro e failure h
    rw [Ending.result, h]
    rfl
  · exact fun it x hx => ⟨rfl, hx⟩

def walk (p : Intake U α) (look : σ → α → Act U σ) (iterable : Handle) (s : σ) :
    Act U (σ × Option Failure) := do
  match ← begin p iterable with
  | .error f => pure (s, some f)
  | .ok c =>
    Act.loop
      (fun (c, s) => do
        match c.get? with
        | none =>
          c.drop p
          pure (.inr (s, none))
        | some v =>
          let s ← look s v
          match ← c.advance p with
          | (c, none) => pure (.inl (c, s))
          | (c, some f) =>
            c.drop p
            pure (.inr (s, some f)))
      (c, s)

theorem walk_follows (henv : env.Respects sight) (hcalm : env.Calm)
    (hp : p.Discreet sight env) (hlook : ∀ s v, (visit s v).Inert sight env (f s v))
    (hw : w.Alike sight w') :
    Follows sight env p.convert iterable w w' (walk p visit iterable s)
      fun vs e => (vs.foldl f s, e.failure?) := by
  unfold walk
  refine loop_follows henv hp hw (fun c => (c, s)) Ending.fails (Looking f s)
    (fun it => ⟨?_, ?_⟩) ?_ ?_
  · rintro _ element v index seen w w' ⟨rfl, hx⟩ hw clear
    refine (hlook _ v).matches hw fun w₁ hw₁ => ?_
    have hadvance := advance_matches henv hcalm hp it element v index hw₁
      (hw₁.pending.trans (hw.pending.symm.trans clear))
    refine advance_turns henv hadvance ?_ ?_
    · exact fun x hx => ⟨by simp, hx⟩
    · intro e failure h
      simp [h]
  · rintro _ e index seen w w' ⟨rfl, hx⟩ hw
    have hdrop := drop_matches (p := p) henv
      (c := (Pull.stop e : Pull α).cursor it index) rfl hw
    refine hdrop.after fun _ _ w₁ w₁' _ _ hw₁ => ⟨?_, hw₁⟩
    rw [show e.failure? = none from hx]
  · intro e failure h
    rw [h]
    rfl
  · exact fun it x hx => ⟨rfl, hx⟩

theorem lengthHint_unnoticed (clear : w.pending = none)
    (hslot : ∀ d state slot, w.heap.payload? iterable = some (.native d state) →
      d.lengthHint = some slot →
        ∃ n w₁, runHintSlot slot iterable env w = .done n w₁ ∧ w₁.Alike sight w) :
    ∃ n w₁, lengthHint iterable env w = .done n w₁ ∧ w₁.Alike sight w := by
  obtain ⟨heap, _, settings, client⟩ := w
  subst clear
  unfold lengthHint
  rw [bind_run]
  dsimp only [Act.heap]
  by_cases hnative : ∃ d state slot, heap.payload? iterable = some (.native d state) ∧
      d.lengthHint = some slot
  · obtain ⟨d, state, slot, hpayload, hhint⟩ := hnative
    obtain ⟨n, ⟨heap₁, pending₁, settings₁, client₁⟩, hrun, halike⟩ :=
      hslot d state slot hpayload hhint
    obtain rfl : pending₁ = none := halike.pending
    refine ⟨n, _, ?_, halike⟩
    simp only [hpayload, hhint, bind_run, Indicator.take, Indicator.swap, hrun]
    rfl
  · -- without a slot there is nothing to run
    cases hpayload : heap.payload? iterable with
    | none => exact ⟨none, _, rfl, .refl _⟩
    | some p =>
      cases p
      case native d state =>
        cases hhint : d.lengthHint with
        | none =>
          refine ⟨none, _, ?_, .refl _⟩
          simp only [hhint]
          rfl
        | some slot => exact (hnative ⟨d, state, slot, hpayload, hhint⟩).elim
      all_goals exact ⟨_, _, rfl, .refl _⟩

theorem collectSized_follows (henv : env.Respects sight) (hcalm : env.Calm)
    (hp : p.Discreet sight env) (clear : w.pending = none)
    (hslot : ∀ d state slot, w.heap.payload? iterable = some (.native d state) →
      d.lengthHint = some slot →
        ∃ n w₁, runHintSlot slot iterable env w = .done n w₁ ∧ w₁.Alike sight w)
    (room : ¬Overstates p iterable env w) :
    Follows sight env p.convert iterable w w (collectSized p iterable) fun vs e => e.result vs := by
  have hfollows : ∃ w₀, w₀.Alike sight w ∧
      collectSized p iterable env w = collect p iterable env w₀ := by
    cases hreserve : w.settings.reserveFromHint with
    | false => exact ⟨w, .refl w, collectSized_unasked hreserve⟩
    | true =>
      obtain ⟨n, w₀, hrun, halike⟩ := lengthHint_unnoticed clear hslot
      exact ⟨w₀, halike, collectSized_done hreserve hrun room⟩
  obtain ⟨w₀, halike, hrun⟩ := hfollows
  have hcollect := collect_follows henv hcalm hp iterable halike
  exact ⟨fun hpass hbudget => hrun ▸ hcollect.returns hpass hbudget,
    fun h => hcollect.only (hrun ▸ h)⟩

theorem collectSized_overstated (clear : w.pending = none)
    (hslot : ∀ d state slot, w.heap.payload? iterable = some (.native d state) →
      d.lengthHint = some slot →
        ∃ n w₁, runHintSlot slot iterable env w = .done n w₁ ∧ w₁.Alike sight w)
    (full : Overstates p iterable env w) :
    ∃ w₁, collectSized p iterable env w = .fault .capacityOverflow w₁ ∧ w₁.Alike sight w := by
  obtain ⟨n, w₁, hhint, halike⟩ := lengthHint_unnoticed clear hslot
  obtain ⟨m, w₂, hhint₂, hfault⟩ := collectSized_fault full
  obtain ⟨rfl, rfl⟩ : n = m ∧ w₁ = w₂ := by simpa [hhint] using hhint₂
  exact ⟨w₁, hfault, halike⟩

/-- Whoever makes a whole pass does what the reference does, sees its values in order, and is told
of its ending; and the ending says where the pass stopped and what is pending. Whoever makes room
for the values beforehand does not get that far where the iterable says it has too many. -/
theorem consumers_follow_pass (henv : env.Respects sight) (hcalm : env.Calm)
    (hp : p.Discreet sight env) (hvisit : ∀ s v, (visit s v).Inert sight env (f s v))
    (iterable : Handle) (s : σ) (clear : w.pending = none) :
    (∀ vs e w', Pass p.convert env iterable w vs e w' → e.Fits vs.length w'.pending) ∧
    Follows sight env p.convert iterable w w (collect p iterable) (fun vs e => e.result vs) ∧
    Follows sight env p.convert iterable w w (tryForEach p visit iterable s)
      (fun vs e => (e.result (), vs.foldl f s)) ∧
    Follows sight env p.convert iterable w w (walk p visit iterable s)
      (fun vs e => (vs.foldl f s, e.failure?)) ∧
    Follows sight env p.convert iterable w w (drain p visit iterable s)
      (fun vs e => (vs.foldl f s, e.failure?)) ∧
    ((∀ d state slot, w.heap.payload? iterable = some (.native d state) →
        d.lengthHint = some slot →
          ∃ n w₁, runHintSlot slot iterable env w = .done n w₁ ∧ w₁.Alike sight w) →
      (¬Overstates p iterable env w →
        Follows sight env p.convert iterable w w (collectSized p iterable)
          (fun vs e => e.result vs)) ∧
      (Overstates p iterable env w →
        ∃ w₁, collectSized p iterable env w = .fault .capacityOverflow w₁ ∧
          w₁.Alike sight w)) :=
  ⟨fun _ _ _ hpass => hpass.fits hcalm,
    collect_follows henv hcalm hp iterable (.refl w),
    tryForEach_follows henv hcalm hp hvisit (.refl w),
    walk_follows henv hcalm hp hvisit (.refl w),
    drain_follows henv hcalm hp hvisit (.refl w),
    fun hslot => ⟨collectSized_follows henv hcalm hp clear hslot,
      collectSized_overstated clear hslot⟩⟩

def idleHooks (env : Env U) : Hooks U where
  call := fun _ _ w => .done none w
  slot := fun _ _ w => .done none w
  measure := fun _ _ w => .done none w
  destroy := fun _ hs w => releaseAll hs env w
  toPeer := fun _ _ _ w => .done none w

def counting : Env Nat := .tie (fun _ n => n) idleHooks 4

def countingIntake : Intake Nat Int64 where
  convert := intFromPeer
  units := fun _ => []
  deleter := some fun _ => Act.modifyClient (· + 1)
  width := NativeType.i64.width

def countingVisit (seen : List Int64) (v : Int64) : Act Nat (List Int64) := do
  Act.modifyClient (· + 1)
  pure (seen ++ [v])

def mixedWorld : World Nat where
  heap := (((Heap.empty.insert (.int 7)).2.insert (.str "x")).2.insert
    (.list [⟨0, 0⟩, ⟨1, 0⟩])).2
  pending := none
  settings := {}
  client := 0

theorem idleHooks_respects (henv : env.Respects sight) : (idleHooks env).Respects sight where
  call := fun _ _ _ _ h => ⟨rfl, h⟩
  slot := fun _ _ _ _ h => ⟨rfl, h⟩
  measure := fun _ _ _ _ h => ⟨rfl, h⟩
  destroy := fun _ hs => releaseAll_respects henv hs
  toPeer := fun _ _ _ _ _ h => ⟨rfl, h⟩

theorem counting_respects : counting.Respects ⊤ :=
  tie_respects (fun _ _ _ _ => trivial) (fun _ => idleHooks_respects) 4

theorem counting_calm : counting.Calm :=
  tie_calm (fun _ hcalm _ hs _ => releaseAll_calm hcalm hs) 4

theorem countingIntake_discreet {env : Env Nat} (henv : env.Respects ⊤) :
    countingIntake.Discreet ⊤ env where
  units := fun _ => rfl
  convert := fun h => by
    refine .bind (.bind (askPayload_respects _ _) fun _ => .pure _) fun v => ?_
    cases v with
    | some v => exact .pure _
    | none =>
      exact .bind (typeNameOf_respects _) fun _ =>
        .bind (raise_respects henv _ _) fun _ => .pure _
  deleter := by
    rintro _ ⟨⟩ v w
    exact ⟨_, rfl, rfl, rfl, rfl, trivial⟩

theorem drain_mixed :
    (drain countingIntake countingVisit ⟨2, 0⟩ [] counting mixedWorld).answer? =
      some ([7], some (.of (.elementConversion 1))) := by
  decide +kernel

theorem mixedWorld_roomy : ¬Overstates countingIntake ⟨2, 0⟩ counting mixedWorld := by
  rintro ⟨-, count, w', hhint, full⟩
  have hlength : lengthHint ⟨2, 0⟩ counting mixedWorld = .done (some 2) mixedWorld := rfl
  rw [hlength] at hhint
  cases hhint
  exact absurd full (by decide)

theorem consumers_follow_pass_mixed :
    ∃ e w', Pass intFromPeer counting ⟨2, 0⟩ mixedWorld [7] e w' ∧
      e.failure? = some (.of (.elementConversion 1)) ∧ w'.pending = none ∧
      (collectSized countingIntake ⟨2, 0⟩ counting mixedWorld).answer? =
        some (.error (.of (.elementConversion 1))) := by
  have hvisit : ∀ seen v, (countingVisit seen v).Inert ⊤ counting (seen ++ [v]) :=
    fun seen v w => ⟨_, rfl, rfl, rfl, rfl, trivial⟩
  obtain ⟨hfits, -, -, -, hdrain, hsized⟩ := consumers_follow_pass (w := mixedWorld)
    counting_respects counting_calm (countingIntake_discreet counting_respects) hvisit ⟨2, 0⟩ [] rfl
  obtain ⟨w₁, hrun⟩ := Outcome.answer?_eq_some.1 drain_mixed
  obtain ⟨vs, e, w', hpass, hanswer, -⟩ := hdrain.only hrun
  obtain ⟨hvs, he⟩ := Prod.mk.inj hanswer
  have hseen : vs = [7] := by simpa [← List.flatMap_def] using hvs.symm
  subst hseen
  obtain ⟨hall, -⟩ := hsized fun _ _ _ hlist _ => nomatch hlist
  obtain ⟨w₂, hcollect, -⟩ := (hall mixedWorld_roomy).returns hpass (by decide)
  refine ⟨e, w', hpass, he.symm, ?_, Outcome.answer?_eq_some.2 ⟨w₂, ?_⟩⟩
  · cases e with
    | refused index => exact (hfits _ _ _ hpass).2
    | ended | noIterator | raised =>
      simp [Ending.failure?, Failure.of, Failure.alreadyRaised] at he
  · rw [hcollect, Ending.result, ← he]

/-- An iterator that has nothing, and says that it has as much as can be said. -/
def boastHooks (env : Env U) : Hooks U where
  call := (idleHooks env).call
  slot := fun code h w => if code = 0 then (some <$> acquire h) env w else .done none w
  measure := fun _ _ w => .done (some (2 ^ 64 - 1)) w
  destroy := (idleHooks env).destroy
  toPeer := (idleHooks env).toPeer

def boasting : Env Nat := .tie (fun _ n => n) boastHooks 4

def boast : Descriptor where
  name := "boast"
  doc := ""
  dealloc := .drop
  iter := some (.user 0)
  next := some (.user 1)
  lengthHint := some (.user 2)

def boastWorld : World Nat where
  heap := (Heap.empty.insert (.native boast (some (.scripted [])))).2
  pending := none
  settings := {}
  client := 0

theorem boastHooks_respects (henv : env.Respects sight) : (boastHooks env).Respects sight where
  call := (idleHooks_respects henv).call
  slot := by
    intro code h w w' hw
    unfold boastHooks
    by_cases hcode : code = 0
    · simp only [if_pos hcode]
      exact (acquire_respects henv h).map some w w' hw
    · simp only [if_neg hcode]
      exact ⟨rfl, hw⟩
  measure := fun _ _ _ _ h => ⟨rfl, h⟩
  destroy := (idleHooks_respects henv).destroy
  toPeer := (idleHooks_respects henv).toPeer

theorem boastWorld_overstates : Overstates countingIntake ⟨0, 0⟩ boasting boastWorld :=
  ⟨rfl, 2 ^ 64 - 1, _, rfl, by decide⟩

theorem collectSized_strays :
    boasting.Respects ⊤ ∧ boasting.Calm ∧ countingIntake.Discreet ⊤ boasting ∧
    (∀ d state slot, boastWorld.heap.payload? ⟨0, 0⟩ = some (.native d state) →
      d.lengthHint = some slot →
        ∃ n w, runHintSlot slot ⟨0, 0⟩ boasting boastWorld = .done n w ∧ w.Alike ⊤ boastWorld) ∧
    (collect countingIntake ⟨0, 0⟩ boasting boastWorld).answer? = some (.ok []) ∧
    (∃ w, collectSized countingIntake ⟨0, 0⟩ boasting boastWorld = .fault .capacityOverflow w) ∧
    ¬Follows ⊤ boasting intFromPeer ⟨0, 0⟩ boastWorld boastWorld
      (collectSized countingIntake ⟨0, 0⟩) fun vs e => e.result vs := by
  have hrespects : boasting.Respects ⊤ :=
    tie_respects (fun _ _ _ _ => trivial) (fun _ => boastHooks_respects) 4
  have hcalm : boasting.Calm :=
    tie_calm (fun _ hcalm _ hs _ => releaseAll_calm hcalm hs) 4
  have hdiscreet := countingIntake_discreet hrespects
  have hcollect : (collect countingIntake ⟨0, 0⟩ boasting boastWorld).answer? = some (.ok []) := by
    decide +kernel
  obtain ⟨_, w₁, -, hfault⟩ := collectSized_fault boastWorld_overstates
  refine ⟨hrespects, hcalm, hdiscreet, ?_, hcollect, ⟨w₁, hfault⟩, fun hfollows => ?_⟩
  · rintro _ _ _ ⟨⟩ ⟨⟩
    exact ⟨_, _, rfl, .refl _⟩
  · obtain ⟨w, hrun⟩ := Outcome.answer?_eq_some.1 hcollect
    obtain ⟨vs, e, w', hpass, hvs, -⟩ :=
      (collect_follows hrespects hcalm hdiscreet ⟨0, 0⟩ (.refl boastWorld)).only hrun
    have hnone : vs.length < boasting.budget := by
      cases he : e.failure? with
      | none =>
        rw [Ending.result, he] at hvs
        cases hvs
        decide
      | some f =>
        rw [Ending.result, he] at hvs
        cases hvs
    obtain ⟨_, hdone, -⟩ := hfollows.returns hpass hnone
    rw [hfault] at hdone
    cases hdone

end View

end Causeway
