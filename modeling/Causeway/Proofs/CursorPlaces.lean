import Causeway.Proofs.CallConservation
import Causeway.Proofs.Elements
import Causeway.Proofs.PassConsumers
import Mathlib.Data.List.Induction
/-!
# The places of a cursor

Over a builtin sequence that stays as it is, with a converter that goes by the element, a cursor is
a place in the list of the values up to the first failure: on one of them, in debt of the failure
that was met looking ahead, or spent. Both ways of moving agree on where they lead, in whatever
order they are mixed, and the failure is reported once.
-/
set_option autoImplicit false

namespace Causeway

open Act

variable {U α β : Type}

def firstValues (f : β → Option α) : List β → List α
  | [] => []
  | x :: xs =>
    match f x with
    | some v => v :: firstValues f xs
    | none => []

/-- At an index no greater than the number of the values there is one, or an element without, or the
end. -/
theorem firstValues_cases (f : β → Option α) (xs : List β) (i : Nat)
    (hi : i ≤ (firstValues f xs).length) :
    (∃ x v, xs[i]? = some x ∧ f x = some v ∧ (firstValues f xs)[i]? = some v) ∨
    (i = (firstValues f xs).length ∧ ∃ x, xs[i]? = some x ∧ f x = none) ∨
    (i = (firstValues f xs).length ∧ i = xs.length) := by
  induction xs generalizing i with
  | nil => exact .inr (.inr ⟨Nat.le_zero.1 hi, Nat.le_zero.1 hi⟩)
  | cons x xs ih =>
    cases hx : f x with
    | none =>
      simp only [firstValues, hx, List.length_nil, Nat.le_zero] at hi
      subst hi
      exact .inr (.inl ⟨by simp [firstValues, hx], x, rfl, hx⟩)
    | some v =>
      cases i with
      | zero => exact .inl ⟨x, v, rfl, hx, by simp [firstValues, hx]⟩
      | succ i =>
        simp only [firstValues, hx, List.length_cons, Nat.add_le_add_iff_right] at hi
        simpa [firstValues, hx] using ih i hi

inductive Place where
  | on (i : Nat)
  /-- A failure was met looking ahead, and is still to be reported. -/
  | owing
  | spent
deriving DecidableEq

namespace Cursor

inductive Call where
  | advance
  | next
deriving DecidableEq

inductive Reply (α : Type) where
  | advanced (failure : Option Failure)
  | drawn (out : Option (Except Failure α))

namespace Reply

def failure? : Reply α → Option Failure
  | advanced f => f
  | drawn (some (.error f)) => some f
  | drawn _ => none

def units (valueUnits : α → List Handle) : Reply α → List Handle
  | drawn (some (.ok v)) => valueUnits v
  | _ => []

end Reply

def perform (p : Intake U α) : Call → Cursor α → Act U (Cursor α × Reply α)
  | .advance, c => (fun r => (r.1, .advanced r.2)) <$> c.advance p
  | .next, c => (fun r => (r.1, .drawn r.2)) <$> c.next p

end Cursor

namespace Place

open Cursor (Call Reply)

/-! The values are `vs`; `stopped` says that an element follows them that has none. -/

def begin (vs : List α) : Place := if vs = [] then spent else on 0

def position (vs : List α) : Place → Nat
  | on i => i
  | owing | spent => vs.length

def value? (vs : List α) : Place → Option α
  | on i => vs[i]?
  | owing | spent => none

def refusal (vs : List α) : Failure := .of (.elementConversion vs.length)

def step (vs : List α) (stopped : Bool) : Call → Place → Place × Reply α
  | .advance, on i =>
    if i + 1 < vs.length then (on (i + 1), .advanced none)
    else (spent, .advanced (if stopped then some (refusal vs) else none))
  | .next, on i =>
    (if i + 1 < vs.length then on (i + 1) else if stopped then owing else spent,
      .drawn (vs[i]?.map .ok))
  | .advance, owing => (spent, .advanced (some (refusal vs)))
  | .next, owing => (spent, .drawn (some (.error (refusal vs))))
  | .advance, spent => (spent, .advanced none)
  | .next, spent => (spent, .drawn none)

def after (vs : List α) (stopped : Bool) (calls : List Call) : Place × List (Reply α) :=
  calls.foldl (fun s call => ((s.1.step vs stopped call).1, s.2 ++ [(s.1.step vs stopped call).2]))
    (begin vs, [])

variable {vs : List α} {stopped : Bool}

theorem after_concat (calls : List Call) (call : Call) :
    after vs stopped (calls ++ [call]) =
      (((after vs stopped calls).1.step vs stopped call).1,
        (after vs stopped calls).2 ++ [((after vs stopped calls).1.step vs stopped call).2]) := by
  simp [after, List.foldl_append]

def Within (vs : List α) (stopped : Bool) : Place → Prop
  | on i => i < vs.length
  | owing => stopped = true
  | spent => True

theorem step_within (call : Call) (place : Place) :
    (place.step vs stopped call).1.Within vs stopped := by
  cases place with
  | on i =>
    by_cases hnext : i + 1 < vs.length <;> cases call <;> cases stopped <;>
      simp [step, hnext, Within]
  | owing | spent => cases call <;> trivial

theorem after_within (calls : List Call) : (after vs stopped calls).1.Within vs stopped := by
  induction calls using List.reverseRecOn with
  | nil =>
    change (begin vs).Within vs stopped
    unfold begin
    split
    · trivial
    · exact List.length_pos_iff.2 ‹_›
  | append_singleton calls call _ =>
    rw [after_concat]
    exact step_within call _

/-- The failure is reported exactly once, on the way to the end. -/
theorem after_failures (hbegin : vs = [] → stopped = false) (calls : List Call) :
    (after vs stopped calls).2.filterMap Reply.failure? =
      if (after vs stopped calls).1 = spent ∧ stopped = true then [refusal vs] else [] := by
  induction calls using List.reverseRecOn with
  | nil =>
    change [] = if begin vs = spent ∧ stopped = true then _ else _
    unfold begin
    by_cases h : vs = []
    · simp [hbegin h]
    · simp [h]
  | append_singleton calls call ih =>
    have hwithin : (after vs stopped calls).1.Within vs stopped := after_within calls
    rw [after_concat, List.filterMap_append, ih]
    cases hplace : (after vs stopped calls).1 with
    | on i =>
      rw [hplace] at hwithin
      by_cases hnext : i + 1 < vs.length <;> cases call <;> cases stopped <;>
        simp [step, hnext, Reply.failure?, List.getElem?_eq_getElem hwithin]
    | owing =>
      rw [hplace] at hwithin
      cases call <;> simp [step, Reply.failure?, show stopped = true from hwithin]
    | spent => cases call <;> simp [step, Reply.failure?]

end Place

/-- User code around a pass over a sequence that stays as it is. The converter goes by the element:
what comes of one is `f`, whether it fails by itself or by an error it leaves. Giving back is the
library's own. -/
structure Steady (O : Ownership U) (astray : Prop) (env : Env U) (p : Intake U α)
    (start : World U) (fixed : List Handle) (seq it : Handle) (xs : List Item)
    (f : Item → Option α) : Prop where
  lawful : env.Lawful O
  intake : p.Lawful O
  release : ∀ k w, ∃ env', env.release k w = releaseNow k env' w
  convert : ∀ x e n E w, x ∈ xs → x.Is fixed w e → it ∈ E → e ∈ E → Exact O E w →
    w.pending = none → Standing start fixed seq it n w →
      (p.convert e env w).Settles astray fun o w' =>
        Standing start fixed seq it n w' ∧ (if w'.pending = none then o else none) = f x
  discard : ∀ v n E w, it ∈ E → Exact O (↑(p.units v) + E) w → Standing start fixed seq it n w →
    (p.discard v env w).Settles astray fun _ w' =>
      Standing start fixed seq it n w' ∧ w'.pending = w.pending

theorem Payload.str_kept {s : String} {q : Payload}
    (c : Relation.ReflTransGen Payload.Change (.str s) q) : q = .str s := by
  induction c with
  | refl => rfl
  | tail _ last ih =>
    subst ih
    cases last

namespace Cursor

section

variable {O : Ownership U} {astray : Prop} {env : Env U} {p : Intake U α} {start w w' : World U}
  {fixed : List Handle} {seq it e : Handle} {body : Payload} {xs : List Item} {x : Item}
  {f : Item → Option α} {E : Multiset Handle} {i n : Nat}

/-- An object stands for its element as long as someone keeps it. -/
theorem is_kept {H H' : Multiset Handle} (m : Path O .strict (H, w) (H', w'))
    (hx : Exact O (H + E) w) (he : e ∈ E) (his : x.Is fixed w e) : x.Is fixed w' e := by
  cases x with
  | held h => exact his
  | char c =>
    obtain ⟨q, hq, hchange⟩ := m.payload_kept hx he his.1
    rw [Payload.str_kept hchange] at hq
    exact ⟨hq, his.2⟩

theorem release_element (hs : Steady O astray env p start fixed seq it xs f)
    (hb : Backdrop start fixed seq it body) (hlists : body.Lists xs) (hx : Exact O ({e} + E) w)
    (standing : Standing start fixed seq it n w) (hmem : x ∈ xs) (his : x.Is fixed w e) :
    ∃ w', release e env w = .done () w' ∧ w'.pending = w.pending ∧ Exact O E w' ∧
      Standing start fixed seq it n w' := by
  obtain ⟨env', henv'⟩ := hs.release e w
  obtain ⟨w', hrun, hpending, hstanding⟩ :=
    releaseNow_element hb hlists hx standing hmem his env'
  have hr : release e env w = .done () w' := henv'.trans hrun
  have hout := release_conserves (O := O) (d := .strict) e env hs.lawful w (hx.ready.of_frame E)
  rw [hr] at hout
  exact ⟨w', hr, hpending, hout.1.exact_spend hx, hstanding⟩

/-- What a fetch at an index leaves: an element with its value, a failure, or the end. -/
inductive Fetched (start : World U) (fixed : List Handle) (seq it : Handle) (body : Payload)
    (xs : List Item) (f : Item → Option α) (i : Nat) (w : World U) :
    Cursor α × Option Failure → Prop where
  | found {x : Item} {v : α} {e : Handle} (item : xs[i]? = some x) (value : f x = some v)
      (stands : x.Is fixed w e)
      (standing : Standing start fixed seq it (body.offset (i + 1)) w) :
      Fetched start fixed seq it body xs f i w (⟨it, some (e, v), i, false, none⟩, none)
  | refused {x : Item} (item : xs[i]? = some x) (value : f x = none) :
      Fetched start fixed seq it body xs f i w
        (⟨it, none, i, true, none⟩, some (.of (.elementConversion i)))
  | ended (item : xs[i]? = none) :
      Fetched start fixed seq it body xs f i w (⟨it, none, i, true, none⟩, none)

/-- An element that did not convert leaves, and so does a value that it was converted to. -/
theorem refuse_settles (hs : Steady O astray env p start fixed seq it xs f)
    (hb : Backdrop start fixed seq it body) (hlists : body.Lists xs) (hit : it ∈ E) (out : Option α)
    (hx : Exact O (unitsIf (fun v => ↑(p.units v)) out + ({e} + E)) w)
    (standing : Standing start fixed seq it n w) (hmem : x ∈ xs) (his : x.Is fixed w e)
    (c : Cursor α) (failure : Option Failure) :
    ((do
      holding [e] do
        match out with
        | some v => p.discard v
        | none => pure ()
      release e
      Indicator.clear
      Act.emit (.conversionFailed .element c.position)
      pure (c, failure) : Act U (Cursor α × Option Failure)) env w).Settles astray fun r w' =>
        w'.pending = none ∧ r = (c, failure) := by
  have hrest (act : Act U Unit) (hact : (act env w).Settles astray fun _ w' =>
      Exact O ({e} + E) w' ∧ Standing start fixed seq it n w' ∧ x.Is fixed w' e) :
      ((do
        holding [e] act
        release e
        Indicator.clear
        Act.emit (.conversionFailed .element c.position)
        pure (c, failure) : Act U (Cursor α × Option Failure)) env w).Settles astray fun r w' =>
          w'.pending = none ∧ r = (c, failure) := by
    refine (holding_settles [e] hact).bind fun _ w₁ _ h₁ => ?_
    obtain ⟨-, hx₁, standing₁, his₁⟩ := h₁
    obtain ⟨w₂, hrelease, -⟩ := release_element hs hb hlists hx₁ standing₁ hmem his₁
    obtain ⟨w₃, hclear, hnone, -⟩ := clear_run env w₂
    rw [bind_run, hrelease]
    dsimp only
    rw [bind_run, hclear]
    exact ⟨hnone, rfl⟩
  cases out with
  | none => exact hrest (pure ()) ⟨by rwa [unitsIf, zero_add] at hx, standing, his⟩
  | some v =>
    have hsettles := hs.discard v n ({e} + E) w (Multiset.mem_add.2 (.inr hit)) hx standing
    have hkept := hs.intake.discard .strict v env hs.lawful w (hx.ready.of_frame _)
    refine hrest (p.discard v) ((hsettles.conserved hkept).mono fun _ w' _ h => ?_)
    exact ⟨h.2.exact_spend hx, h.1.1, is_kept h.2 hx (by simp) his⟩

theorem fetch_settles (hs : Steady O astray env p start fixed seq it xs f)
    (hb : Backdrop start fixed seq it body) (hlists : body.Lists xs) (hit : it ∈ E)
    (hx : Exact O E w) (clear : w.pending = none)
    (standing : Standing start fixed seq it (body.offset i) w) :
    (fetch p ⟨it, none, i, false, none⟩ env w).Settles astray fun r w' =>
      w'.pending = none ∧ Fetched start fixed seq it body xs f i w' r := by
  unfold fetch
  simp only [Bool.false_eq_true, if_false]
  rw [bind_run]
  simp only [Indicator.isSet, clear, Option.isSome_none, Bool.false_eq_true, if_false]
  rw [bind_run]
  cases hxi : xs[i]? with
  | none =>
    rw [iterNext_stop hb hlists standing hxi]
    dsimp only
    rw [bind_run]
    simp only [Indicator.isSet, clear, Option.isSome_none, Bool.false_eq_true, if_false]
    exact ⟨clear, .ended hxi⟩
  | some x =>
    obtain ⟨e, w₁, hrun, hpending, hstanding, his⟩ := iterNext_element hb hlists hx standing hxi
    rw [hrun]
    dsimp only
    have hout := iterNext_conserves (O := O) (d := .strict) it env hs.lawful w hx.idle
    rw [hrun] at hout
    have hx₁ : Exact O ({e} + E) w₁ := hout.1.exact_join hx
    have hmem : x ∈ xs := List.mem_of_getElem? hxi
    have hconvert := (hs.convert x e _ ({e} + E) w₁ hmem his (by simp [hit]) (by simp) hx₁
      (hpending.trans clear) hstanding).conserved
        (hs.intake.convert .strict e env hs.lawful w₁ hx₁.idle)
    refine (holding_settles [e] hconvert).bind fun out w₂ _ h₂ => ?_
    obtain ⟨-, ⟨hstanding₂, hout₂⟩, hpath⟩ := h₂
    have hx₂ := hpath.exact_join hx₁
    have his₂ := is_kept hpath (by rwa [zero_add]) (Multiset.mem_add.2 (.inl (by simp))) his
    rw [bind_run]
    simp only [Indicator.isSet]
    have hrest := refuse_settles hs hb hlists hit out hx₂ hstanding₂ hmem his₂
      ⟨it, none, i, true, none⟩ (some (.of (.elementConversion i)))
    have hrefuse (hnone : f x = none) : Outcome.Settles astray (fun r w' =>
        w'.pending = none ∧ Fetched start fixed seq it body xs f i w' r) _ :=
      hrest.mono fun r w' _ h => ⟨h.1, h.2 ▸ .refused hxi hnone⟩
    cases hpending₂ : w₂.pending with
    | some error =>
      rw [if_neg (by simp [hpending₂])] at hout₂
      cases out <;> exact hrefuse hout₂.symm
    | none =>
      rw [if_pos hpending₂] at hout₂
      cases out with
      | none => exact hrefuse hout₂.symm
      | some v => exact ⟨hpending₂, .found hxi hout₂.symm his₂ hstanding₂⟩

/-- The cursor is at the place. On a value it keeps the element, and the iterator stands behind it. -/
inductive Sits (start : World U) (fixed : List Handle) (seq it : Handle) (body : Payload)
    (xs : List Item) (vs : List α) (w : World U) : Place → Cursor α → Prop where
  | on {i : Nat} {x : Item} {v : α} {e : Handle} (item : xs[i]? = some x) (value : vs[i]? = some v)
      (stands : x.Is fixed w e)
      (standing : Standing start fixed seq it (body.offset (i + 1)) w) :
      Sits start fixed seq it body xs vs w (.on i) ⟨it, some (e, v), i, false, none⟩
  | owing : Sits start fixed seq it body xs vs w .owing
      ⟨it, none, vs.length, true, some (Place.refusal vs)⟩
  | spent : Sits start fixed seq it body xs vs w .spent ⟨it, none, vs.length, true, none⟩

theorem Fetched.lands {r : Cursor α × Option Failure}
    (hr : Fetched start fixed seq it body xs f i w r) (hi : i ≤ (firstValues f xs).length) :
    (i < (firstValues f xs).length ∧ r.2 = none ∧ r.1.pending = none ∧
      Sits start fixed seq it body xs (firstValues f xs) w (.on i) r.1) ∨
    (i = (firstValues f xs).length ∧ r.1 = ⟨it, none, i, true, none⟩ ∧
      r.2 = if (firstValues f xs).length < xs.length then some (Place.refusal (firstValues f xs))
        else none) := by
  have hcases := firstValues_cases f xs i hi
  cases hr with
  | @found x v e item value stands standing =>
    obtain ⟨x', v', hitem, hvalue, hv⟩ | ⟨_, x', hitem, hnone⟩ | ⟨_, hend⟩ := hcases
    · cases item.symm.trans hitem
      cases value.symm.trans hvalue
      exact .inl ⟨(List.getElem?_eq_some_iff.1 hv).1, rfl, rfl, .on item hv stands standing⟩
    · cases item.symm.trans hitem
      cases value.symm.trans hnone
    · rw [hend, List.getElem?_length] at item
      cases item
  | @refused x item value =>
    obtain ⟨x', v', hitem, hvalue, _⟩ | ⟨hlast, _⟩ | ⟨_, hend⟩ := hcases
    · cases item.symm.trans hitem
      cases value.symm.trans hvalue
    · have hlt := (List.getElem?_eq_some_iff.1 item).1
      rw [hlast] at hlt
      exact .inr ⟨hlast, rfl, by rw [if_pos hlt, hlast]; rfl⟩
    · rw [hend, List.getElem?_length] at item
      cases item
  | ended item =>
    obtain ⟨x', v', hitem, _⟩ | ⟨_, x', hitem, _⟩ | ⟨hlast, hend⟩ := hcases
    · cases item.symm.trans hitem
    · cases item.symm.trans hitem
    · exact .inr ⟨hlast, rfl, by rw [if_neg (by omega)]⟩

theorem perform_conserves (hp : p.Lawful O) (call : Call) (c : Cursor α) :
    Conserves O .strict ↑(c.units p.units) (perform p call c)
      fun r => ↑(r.1.units p.units) + ↑(r.2.units p.units) := by
  cases call with
  | advance =>
    exact .map ((advance_conserves hp c).of_eq rfl fun r => by simp [Reply.units])
  | next =>
    refine .map ((next_conserves hp c).of_eq rfl fun r => ?_)
    obtain ⟨c, _ | _ | v⟩ := r <;> rfl

/-- On a value, moving on gives the element and its value up, and fetches the next one. -/
theorem advance_settles (hs : Steady O astray env p start fixed seq it xs f)
    (hb : Backdrop start fixed seq it body) (hlists : body.Lists xs) {v : α}
    (hx : Exact O ({e} + (↑(p.units v) + ({it} + E))) w) (clear : w.pending = none)
    (hxi : xs[i]? = some x) (his : x.Is fixed w e)
    (standing : Standing start fixed seq it (body.offset (i + 1)) w) :
    (advance p ⟨it, some (e, v), i, false, none⟩ env w).Settles astray fun r w' =>
      w'.pending = none ∧ Fetched start fixed seq it body xs f (i + 1) w' r := by
  obtain ⟨w₁, hrelease, hpending₁, hx₁, standing₁⟩ :=
    release_element hs hb hlists hx standing (List.mem_of_getElem? hxi) his
  have hheld : holding (p.units v) (release e) env w = .done () w₁ := onFault_done hrelease
  have hrun : advance p ⟨it, some (e, v), i, false, none⟩ env w =
      (p.discard v >>= fun _ => fetch p ⟨it, none, i + 1, false, none⟩) env w₁ := by
    simp only [advance, discardCurrent, bind_run, hheld, Option.isNone_some, Bool.false_eq_true,
      if_false]
    cases p.discard v env w₁ <;> rfl
  have hdiscard := (hs.discard v _ ({it} + E) w₁ (by simp) hx₁ standing₁).conserved
    (hs.intake.discard .strict v env hs.lawful w₁ (hx₁.ready.of_frame _))
  rw [hrun]
  refine hdiscard.bind fun _ w₂ _ h₂ => ?_
  obtain ⟨⟨standing₂, hpending₂⟩, hpath⟩ := h₂
  exact fetch_settles hs hb hlists (by simp) (hpath.exact_spend hx₁)
    (hpending₂.trans (hpending₁.trans clear)) standing₂

/-- On a value, drawing it gives the element up only, and fetches the next one beforehand. -/
theorem next_settles (hs : Steady O astray env p start fixed seq it xs f)
    (hb : Backdrop start fixed seq it body) (hlists : body.Lists xs) {v : α}
    (hx : Exact O ({e} + (↑(p.units v) + ({it} + E))) w) (clear : w.pending = none)
    (hxi : xs[i]? = some x) (his : x.Is fixed w e)
    (standing : Standing start fixed seq it (body.offset (i + 1)) w) :
    (next p ⟨it, some (e, v), i, false, none⟩ env w).Settles astray fun r w' =>
      w'.pending = none ∧ ∃ r', Fetched start fixed seq it body xs f (i + 1) w' r' ∧
        r = ({ r'.1 with pending := r'.2 }, some (.ok v)) := by
  obtain ⟨w₁, hrelease, hpending₁, hx₁, standing₁⟩ :=
    release_element hs hb hlists hx standing (List.mem_of_getElem? hxi) his
  have hheld : holding (p.units v) (release e) env w = .done () w₁ := onFault_done hrelease
  have hfetch := fetch_settles hs hb hlists (by simp) hx₁ (hpending₁.trans clear) standing₁
  have hrun : next p ⟨it, some (e, v), i, false, none⟩ env w =
      (holding (p.units v) (fetch p ⟨it, none, i + 1, false, none⟩) >>= fun r =>
        pure ({ r.1 with pending := r.2 }, some (.ok v))) env w₁ := by
    simp only [next, bind_run, hheld]
  rw [hrun]
  refine (holding_settles _ hfetch).bind fun r w₂ _ h₂ => ?_
  exact ⟨h₂.2.1, r, h₂.2.2, rfl⟩

/-- Whatever is called, the cursor moves as its place does and replies what the place says. -/
theorem perform_settles (hs : Steady O astray env p start fixed seq it xs f)
    (hb : Backdrop start fixed seq it body) (hlists : body.Lists xs) (call : Call) {place : Place}
    {c : Cursor α} (hc : Sits start fixed seq it body xs (firstValues f xs) w place c)
    (hx : Exact O (↑(c.units p.units) + E) w) (clear : w.pending = none) :
    (perform p call c env w).Settles astray fun r w' => w'.pending = none ∧
      r.2 = (place.step (firstValues f xs) ((firstValues f xs).length < xs.length) call).2 ∧
      Sits start fixed seq it body xs (firstValues f xs) w'
        (place.step (firstValues f xs) ((firstValues f xs).length < xs.length) call).1 r.1 := by
  cases hc with
  | @on i x v e item value stands standing =>
    have hle : i + 1 ≤ (firstValues f xs).length := (List.getElem?_eq_some_iff.1 value).1
    rw [units_of_some rfl, add_assoc, add_assoc] at hx
    cases call with
    | advance =>
      refine (advance_settles hs hb hlists hx clear item stands standing).bind fun r w' _ h => ?_
      obtain ⟨clear', hr⟩ := h
      obtain ⟨hlt, hnone, _, hsits⟩ | ⟨hlast, hc', hfailure⟩ := hr.lands hle
      · simp only [Place.step, if_pos hlt]
        exact ⟨clear', congrArg Reply.advanced hnone, hsits⟩
      · have hstop : ¬ i + 1 < (firstValues f xs).length := by omega
        simp only [Place.step, if_neg hstop, decide_eq_true_eq]
        refine ⟨clear', congrArg Reply.advanced hfailure, ?_⟩
        rw [hc', hlast]
        exact .spent
    | next =>
      refine (next_settles hs hb hlists hx clear item stands standing).bind fun r w' _ h => ?_
      obtain ⟨clear', r, hr, rfl⟩ := h
      have hdrawn : (firstValues f xs)[i]?.map Except.ok = some (.ok v : Except Failure α) := by
        rw [value]
        rfl
      refine ⟨clear', congrArg Reply.drawn hdrawn.symm, ?_⟩
      obtain ⟨hlt, hnone, hpending, hsits⟩ | ⟨hlast, hc', hfailure⟩ := hr.lands hle
      · simp only [Place.step, if_pos hlt]
        rw [hnone, ← hpending]
        exact hsits
      · have hstop : ¬ i + 1 < (firstValues f xs).length := by omega
        simp only [Place.step, if_neg hstop, decide_eq_true_eq]
        rw [hc', hfailure, hlast]
        split
        · exact .owing
        · exact .spent
  | owing => cases call <;> exact ⟨clear, rfl, .spent⟩
  | spent => cases call <;> exact ⟨clear, rfl, .spent⟩

theorem fetch_iterator (c : Cursor α) :
    (fetch p c).Answers fun r => r.1.iterator = c.iterator := by
  unfold fetch
  split
  · exact .pure rfl
  · refine .bind fun pending => ?_
    split
    · exact .pure rfl
    · refine .bind fun found => ?_
      cases found with
      | none =>
        refine .bind fun pending => ?_
        split
        · exact .pure rfl
        · exact .bind fun _ => .pure rfl
      | some e =>
        refine .bind fun out => .bind fun pending => ?_
        split
        · exact .pure rfl
        · exact .bind fun _ => .bind fun _ => .bind fun _ => .bind fun _ => .pure rfl

/-- A builtin sequence gives an iterator of its own that stands at its beginning. -/
theorem getIter_sequence (hlists : body.Lists xs) (found : w.heap.payload? seq = some body)
    (ho : w.heap.InOrder) (hseq : seq ∈ fixed)
    (alive : ∀ k ∈ fixed, ∃ q, w.heap.payload? k = some q) (env : Env U) :
    ∃ it w', getIter seq env w = .done (some it) w' ∧ w'.pending = w.pending ∧
      Backdrop w fixed seq it body ∧ Standing w fixed seq it (body.offset 0) w' := by
  obtain ⟨it, w', hrun, htaken, hfresh, hit⟩ := getIter_begins ho found hlists env
  refine ⟨it, w', hrun, htaken.pending, ⟨hseq, found, alive, fun hk => ?_⟩, fun k hk => ?_, hit⟩
  · obtain ⟨q, hq⟩ := alive it hk
    rw [Heap.payload?, hfresh] at hq
    cases hq
  · obtain ⟨q, hq⟩ := alive k hk
    rw [htaken.kept k q hq, hq]

/-- A pass that begins sits on the first value, or is spent if there are no elements. -/
theorem begin_sits {c : Cursor α} (hs : Steady O astray env p w fixed seq c.iterator xs f)
    (hlists : body.Lists xs) (found : w.heap.payload? seq = some body) (hx : Exact O E w)
    (hseq : seq ∈ fixed) (alive : ∀ k ∈ fixed, ∃ q, w.heap.payload? k = some q)
    (clear : w.pending = none) (run : View.begin p seq env w = .done (.ok c) w') :
    w'.pending = none ∧ Backdrop w fixed seq c.iterator body ∧
      Exact O (↑(c.units p.units) + E) w' ∧
      (firstValues f xs = [] → decide ((firstValues f xs).length < xs.length) = false) ∧
      Sits w fixed seq c.iterator body xs (firstValues f xs) w' (Place.begin (firstValues f xs)) c := by
  have hout := View.begin_conserves (d := .strict) hs.intake seq env hs.lawful w hx.idle
  rw [run] at hout
  have hx' : Exact O (↑(c.units p.units) + E) w' := hout.1.exact_join hx
  obtain ⟨it, w₁, hiter, hpending₁, hb, hstanding⟩ :=
    getIter_sequence hlists found hx.inOrder hseq alive env
  have hiterout := getIter_conserves (O := O) (d := .strict) seq env hs.lawful w hx.idle
  rw [hiter] at hiterout
  have hx₁ : Exact O ({it} + E) w₁ := hiterout.1.exact_join hx
  let w₂ : World U :=
    { w₁ with client := env.observe (.iterationStarted (w₁.heap.typeName seq)) w₁.client }
  have hx₂ : Exact O ({it} + E) w₂ :=
    ((Conserves.emit (d := .strict) _) env hs.lawful w₁ hx₁.idle).1.exact_aside hx₁
  obtain ⟨_, _, hiter', hrest⟩ := bind_eq_done.1 run
  obtain ⟨⟩ := hiter.symm.trans hiter'
  obtain ⟨_, _, ⟨⟩, hrest⟩ := bind_eq_done.1 hrest
  obtain ⟨_, _, ⟨⟩, hrest⟩ := bind_eq_done.1 hrest
  obtain ⟨⟨c', failure⟩, w₃, hheld, hrest⟩ := bind_eq_done.1 hrest
  have hfetch := holding_eq_done hheld
  cases failure with
  | some failure =>
    obtain ⟨_, _, _, ⟨⟩⟩ := bind_eq_done.1 hrest
  | none =>
    obtain ⟨⟩ := hrest
    obtain rfl : c.iterator = it := fetch_iterator _ _ _ _ _ hfetch
    have hsettles := fetch_settles hs hb hlists (by simp) hx₂ (hpending₁.trans clear)
      (hstanding.of_payload (fun _ _ => rfl) rfl)
    rw [show fetch p ⟨c.iterator, none, 0, false, none⟩ env w₂ = _ from hfetch] at hsettles
    obtain ⟨clear', hfetched⟩ := hsettles
    refine ⟨clear', hb, hx', ?_⟩
    obtain ⟨hlt, _, _, hsits⟩ | ⟨hlast, hc, hfailure⟩ := hfetched.lands (Nat.zero_le _)
    · have hne : firstValues f xs ≠ [] := List.length_pos_iff.1 hlt
      exact ⟨fun h => absurd h hne, by rwa [Place.begin, if_neg hne]⟩
    · have hnil : firstValues f xs = [] := List.eq_nil_of_length_eq_zero hlast.symm
      refine ⟨fun _ => ?_, ?_⟩
      · by_contra hstopped
        rw [if_pos (by simpa using hstopped)] at hfailure
        cases hfailure
      · have hspent : Sits w fixed seq c.iterator body xs (firstValues f xs) w' .spent
            ⟨c.iterator, none, (firstValues f xs).length, true, none⟩ := .spent
        rw [← hlast, ← hc] at hspent
        rwa [Place.begin, if_pos hnil]

/-- A run of calls on a cursor, whatever happens in between that leaves the sequence, the indicator,
and what the cursor owns alone. `E` is what everybody else owns, the values drawn included. -/
inductive Calls (O : Ownership U) (env : Env U) (p : Intake U α) (fixed : List Handle)
    (first : Cursor α) (begun : World U) (owned : Multiset Handle) :
    List Call → List (Reply α) → Multiset Handle → Cursor α → World U → Prop where
  | begun : Calls O env p fixed first begun owned [] [] owned first begun
  | aside {calls : List Call} {replies : List (Reply α)} {E E' : Multiset Handle} {c : Cursor α}
      {w w' : World U} (before : Calls O env p fixed first begun owned calls replies E c w)
      (clear : w'.pending = none) (exact : Exact O (↑(c.units p.units) + E') w')
      (same : ∀ k, k ∈ fixed ∨ k ∈ c.units p.units → w'.heap.payload? k = w.heap.payload? k) :
      Calls O env p fixed first begun owned calls replies E' c w'
  | call {calls : List Call} {replies : List (Reply α)} {E : Multiset Handle} {c c' : Cursor α}
      {w w' : World U} {call : Call} {reply : Reply α}
      (before : Calls O env p fixed first begun owned calls replies E c w)
      (ran : c.perform p call env w = .done (c', reply) w') :
      Calls O env p fixed first begun owned (calls ++ [call]) (replies ++ [reply])
        (↑(reply.units p.units) + E) c' w'

theorem Sits.of_payload {vs : List α} {place : Place} {c : Cursor α}
    (hc : Sits start fixed seq it body xs vs w place c)
    (same : ∀ k, k ∈ fixed ∨ k ∈ c.units p.units → w'.heap.payload? k = w.heap.payload? k) :
    Sits start fixed seq it body xs vs w' place c := by
  cases hc with
  | @on i x v e item value stands standing =>
    refine .on item value ?_ (standing.of_payload (fun k hk => same k (.inl hk))
      (same it (.inr (by simp [Cursor.units]))))
    cases x with
    | held h => exact stands
    | char k => exact ⟨(same e (.inr (by simp [Cursor.units]))).trans stands.1, stands.2⟩
  | owing => exact .owing
  | spent => exact .spent

theorem Calls.sits {first : Cursor α} {begun : World U} {owned : Multiset Handle}
    {calls : List Call} {replies : List (Reply α)} {c : Cursor α}
    (hs : Steady O astray env p start fixed seq it xs f) (hb : Backdrop start fixed seq it body)
    (hlists : body.Lists xs) (hclear : begun.pending = none)
    (hx : Exact O (↑(first.units p.units) + owned) begun)
    (hfirst : Sits start fixed seq it body xs (firstValues f xs) begun
      (Place.begin (firstValues f xs)) first)
    (ran : Calls O env p fixed first begun owned calls replies E c w) :
    w.pending = none ∧ Exact O (↑(c.units p.units) + E) w ∧
      replies =
        (Place.after (firstValues f xs) ((firstValues f xs).length < xs.length) calls).2 ∧
      Sits start fixed seq it body xs (firstValues f xs) w
        (Place.after (firstValues f xs) ((firstValues f xs).length < xs.length) calls).1 c := by
  induction ran with
  | begun => exact ⟨hclear, hx, rfl, hfirst⟩
  | aside _ clear exact same ih =>
    obtain ⟨_, _, hreplies, hsits⟩ := ih
    exact ⟨clear, exact, hreplies, hsits.of_payload same⟩
  | @call calls replies E c c' w w' call reply _ ran ih =>
    obtain ⟨clear, hx, hreplies, hsits⟩ := ih
    have hsettles := perform_settles hs hb hlists call hsits hx clear
    have hout := perform_conserves hs.intake call c env hs.lawful w (hx.ready.of_frame _)
    rw [ran] at hsettles hout
    obtain ⟨clear', hreply, hsits'⟩ := hsettles
    refine ⟨clear', ?_, ?_, ?_⟩
    · rw [← add_assoc]
      exact hout.1.exact_frame hx
    · rw [Place.after_concat, hreplies]
      exact congrArg _ (congrArg (fun r => [r]) hreply)
    · rw [Place.after_concat]
      exact hsits'

theorem Sits.shows {vs : List α} {place : Place} {c : Cursor α}
    (hc : Sits start fixed seq it body xs vs w place c) :
    c.position = place.position vs ∧ c.get? = place.value? vs ∧
    (c.isExhausted = true ↔ place = .spent) ∧
    (∀ i, place = .on i → i < vs.length ∧
      ∃ x e, xs[i]? = some x ∧ x.Is fixed w e ∧ c.element? = some e) ∧
    ((∀ i, place ≠ .on i) → c.element? = none) := by
  cases hc with
  | @on i x v e item value stands standing =>
    refine ⟨rfl, value.symm, by simp [isExhausted], ?_, fun h => absurd rfl (h i)⟩
    rintro _ ⟨⟩
    exact ⟨(List.getElem?_eq_some_iff.1 value).1, x, e, item, stands, rfl⟩
  | owing => exact ⟨rfl, rfl, by simp [isExhausted], nofun, fun _ => rfl⟩
  | spent => exact ⟨rfl, rfl, by simp [isExhausted], nofun, fun _ => rfl⟩

/-- Over a sequence that stays as it is, a cursor is its place: after any calls, what it shows, what
it owns, what was replied and what the next call does are what the place says. -/
theorem cursor_refines_place {first c : Cursor α} {calls : List Call} {replies : List (Reply α)}
    {owned : Multiset Handle} (hs : Steady O astray env p start fixed seq first.iterator xs f)
    (hlists : body.Lists xs) (found : start.heap.payload? seq = some body)
    (hseq : seq ∈ fixed) (alive : ∀ k ∈ fixed, ∃ q, start.heap.payload? k = some q)
    (hx : Exact O owned start) (clear : start.pending = none)
    (begun : View.begin p seq env start = .done (.ok first) w')
    (ran : Calls O env p fixed first w' owned calls replies E c w) :
    let vs := firstValues f xs
    let stopped := decide (vs.length < xs.length)
    let place := (Place.after vs stopped calls).1
    replies = (Place.after vs stopped calls).2 ∧
    replies.filterMap Reply.failure? =
      (if place = .spent ∧ stopped = true then [.of (.elementConversion vs.length)] else []) ∧
    c.position = place.position vs ∧ c.get? = place.value? vs ∧
    (c.isExhausted = true ↔ place = .spent) ∧
    (∀ i, place = .on i → i < vs.length ∧
      ∃ x e, xs[i]? = some x ∧ x.Is fixed w e ∧ c.element? = some e) ∧
    ((∀ i, place ≠ .on i) → c.element? = none) ∧
    w.pending = none ∧ Exact O (↑(c.units p.units) + E) w ∧
    ∀ call, (c.perform p call env w).Settles astray fun r w'' => w''.pending = none ∧
      r.2 = (place.step vs stopped call).2 ∧
      r.1.position = (place.step vs stopped call).1.position vs := by
  intro vs stopped place
  obtain ⟨clear', hb, hx', hbegin, hsits⟩ := begin_sits hs hlists found hx hseq alive clear begun
  obtain ⟨hpending, hexact, hreplies, hc⟩ := ran.sits hs hb hlists clear' hx' hsits
  have hfailures : (Place.after vs stopped calls).2.filterMap Reply.failure? = _ :=
    Place.after_failures hbegin calls
  obtain ⟨hposition, hvalue, hexhausted, hon, hoff⟩ := hc.shows
  refine ⟨hreplies, by rw [hreplies]; exact hfailures, hposition, hvalue, hexhausted, hon, hoff,
    hpending, hexact, fun call => ?_⟩
  exact (perform_settles hs hb hlists call hc hexact hpending).mono fun r w'' _ h =>
    ⟨h.1, h.2.1, h.2.2.shows.1⟩

end

section

open View (counting countingIntake mixedWorld idleHooks)

def mixedItems : List Item := [.held ⟨0, 0⟩, .held ⟨1, 0⟩]

def mixedObjects : List Handle := [⟨0, 0⟩, ⟨1, 0⟩, ⟨2, 0⟩]

def mixedValue (x : Item) : Option Int64 := if x = .held ⟨0, 0⟩ then some 7 else none

theorem idleHooks_lawful {env : Env Nat} (henv : env.Lawful .blank) :
    (idleHooks env).Lawful .blank where
  call := fun _ _ _ _ _ => ⟨.refl, rfl⟩
  slot := fun _ _ _ _ _ => ⟨.refl, rfl⟩
  measure := fun _ _ _ _ _ => ⟨.refl, rfl⟩
  destroy := fun _ _ hs w hw => releaseAll_conserves hs env henv w hw
  toPeer := fun _ _ _ _ _ _ => ⟨.refl, rfl⟩

theorem counting_lawful : counting.Lawful .blank :=
  tie_lawful (fun _ _ => rfl) (fun _ _ => rfl) (fun _ _ h => h) (fun _ => idleHooks_lawful) 4

theorem countingIntake_lawful : countingIntake.Lawful .blank where
  convert := fun d h => (intFromPeer_conserves h).of_eq rfl fun o => by cases o <;> rfl
  discard := fun d v => .of_heap_eq fun _ _ w => ⟨(), _, rfl, rfl, rfl, rfl, fun _ h => h⟩

theorem mixed_steady : Steady .blank False counting countingIntake mixedWorld mixedObjects ⟨2, 0⟩
    ⟨3, 0⟩ mixedItems mixedValue where
  lawful := counting_lawful
  intake := countingIntake_lawful
  release := fun _ _ => ⟨_, rfl⟩
  convert := fun x e n E w hmem his _ _ _ clear standing => by
    obtain rfl | rfl : x = .held ⟨0, 0⟩ ∨ x = .held ⟨1, 0⟩ := by simpa [mixedItems] using hmem
    · obtain rfl : e = ⟨0, 0⟩ := his
      have hpayload : w.heap.payload? ⟨0, 0⟩ = some (.int 7) :=
        standing.same ⟨0, 0⟩ (by simp [mixedObjects])
      have hrun : intFromPeer ⟨0, 0⟩ counting w = .done (some 7) w := by
        simp [intFromPeer, asInt, askPayload, bind_run, Act.heap, hpayload, Payload.asInt?, pure_run]
      rw [show countingIntake.convert ⟨0, 0⟩ counting w = _ from hrun]
      exact ⟨standing, by rw [if_pos clear]; rfl⟩
    · obtain rfl : e = ⟨1, 0⟩ := his
      have hpayload : w.heap.payload? ⟨1, 0⟩ = some (.str "x") :=
        standing.same ⟨1, 0⟩ (by simp [mixedObjects])
      obtain ⟨w', hraise, hpending, hheap⟩ := raise_run (w := w) .typeError
        s!"an integer is required (got type {w.heap.typeName ⟨1, 0⟩})" counting clear
      have hrun : intFromPeer ⟨1, 0⟩ counting w = .done none w' := by
        simp only [intFromPeer, asInt, askPayload, bind_run, Act.heap, hpayload, Option.map_some,
          Payload.asInt?, pure_run, Option.bind_some, id, typeNameOf, raiseType, hraise]
      rw [show countingIntake.convert ⟨1, 0⟩ counting w = _ from hrun]
      refine ⟨standing.of_payload (fun k _ => by rw [hheap]) (by rw [hheap]), ?_⟩
      rw [if_neg (by simp [hpending])]
      rfl
  discard := fun v n E w _ _ standing => ⟨standing.of_payload (fun _ _ => rfl) rfl, rfl⟩

theorem mixedWorld_exact : Exact .blank {⟨2, 0⟩} mixedWorld := by
  let w₀ : World Nat := { mixedWorld with heap := .empty }
  let w₁ : World Nat := { w₀ with heap := (w₀.heap.insert (.int 7)).2 }
  let w₂ : World Nat := { w₁ with heap := (w₁.heap.insert (.str "x")).2 }
  have hx₀ : Exact .blank 0 w₀ := ⟨Heap.empty_inOrder, fun _ => rfl, trivial⟩
  have m₁ : Move .blank .strict (0, w₀) ({⟨0, 0⟩}, w₁) := .insert 0 w₀ (.int 7)
  have m₂ : Move .blank .strict ({⟨0, 0⟩}, w₁) ({⟨1, 0⟩} + {⟨0, 0⟩}, w₂) :=
    .insert {⟨0, 0⟩} w₁ (.str "x")
  have hunits : ({⟨1, 0⟩} + {⟨0, 0⟩} : Multiset Handle) = ↑[(⟨0, 0⟩ : Handle), ⟨1, 0⟩] + 0 :=
    (add_comm _ _).trans (add_zero _).symm
  have hx₂ := m₂.exact (m₁.exact hx₀)
  rw [hunits] at hx₂
  have m₃ : Move .blank .strict (↑[(⟨0, 0⟩ : Handle), ⟨1, 0⟩] + 0, w₂) ({⟨2, 0⟩} + 0, mixedWorld) :=
    .insert 0 w₂ (.list [⟨0, 0⟩, ⟨1, 0⟩])
  simpa only [add_zero] using m₃.exact hx₂

theorem mixed_begins : ((View.begin countingIntake ⟨2, 0⟩ counting mixedWorld).answer?.map
    fun r => r.toOption.map (·.iterator)) = some (some ⟨3, 0⟩) := by
  decide +kernel

theorem cursor_refines_place_mixed :
    ∃ first c w₁ E w, View.begin countingIntake ⟨2, 0⟩ counting mixedWorld = .done (.ok first) w₁ ∧
      Calls .blank counting countingIntake mixedObjects first w₁ {⟨2, 0⟩} [.next, .advance, .next]
        [.drawn (some (.ok 7)), .advanced (some (.of (.elementConversion 1))), .drawn none] E c w ∧
      c.position = 1 ∧ c.isExhausted = true := by
  obtain ⟨first, w₁, begun, hiterator⟩ : ∃ first w₁,
      View.begin countingIntake ⟨2, 0⟩ counting mixedWorld = .done (.ok first) w₁ ∧
        first.iterator = ⟨3, 0⟩ := by
    obtain ⟨r, hr, hmap⟩ := Option.map_eq_some_iff.1 mixed_begins
    obtain ⟨w₁, hrun⟩ := Outcome.answer?_eq_some.1 hr
    cases r with
    | error f => cases hmap
    | ok first => exact ⟨first, w₁, hrun, Option.some.inj hmap⟩
  have hs := mixed_steady
  rw [← hiterator] at hs
  have alive : ∀ k ∈ mixedObjects, ∃ q, mixedWorld.heap.payload? k = some q := by
    simp only [mixedObjects, List.forall_mem_cons]
    exact ⟨⟨_, rfl⟩, ⟨_, rfl⟩, ⟨_, rfl⟩, nofun⟩
  have hrefines {calls : List Call} {replies : List (Reply Int64)} {E : Multiset Handle}
      {c : Cursor Int64} {w : World Nat}
      (ran : Calls .blank counting countingIntake mixedObjects first w₁ {⟨2, 0⟩} calls replies E c
        w) :=
    cursor_refines_place hs (.list [⟨0, 0⟩, ⟨1, 0⟩]) rfl (by simp [mixedObjects]) alive
      mixedWorld_exact rfl begun ran
  have hstep {calls : List Call} {replies : List (Reply Int64)} {E : Multiset Handle}
      {c : Cursor Int64} {w : World Nat} (call : Call) (ran : Calls .blank counting countingIntake
        mixedObjects first w₁ {⟨2, 0⟩} calls replies E c w) :
      ∃ reply E' c' w', Calls .blank counting countingIntake mixedObjects first w₁ {⟨2, 0⟩}
        (calls ++ [call]) (replies ++ [reply]) E' c' w' := by
    have hnext := (hrefines ran).2.2.2.2.2.2.2.2.2 call
    cases hr : c.perform countingIntake call counting w with
    | done r w' => exact ⟨r.2, _, r.1, w', ran.call hr⟩
    | fault _ _ | unfinished =>
      rw [hr] at hnext
      exact hnext.elim
  obtain ⟨r₁, _, _, _, ran₁⟩ := hstep .next .begun
  obtain ⟨r₂, _, _, _, ran₂⟩ := hstep .advance ran₁
  obtain ⟨r₃, E, c, w, ran₃⟩ := hstep .next ran₂
  obtain ⟨hreplies, _, hposition, _, hexhausted, _⟩ := hrefines ran₃
  have hafter : Place.after (firstValues mixedValue mixedItems)
      ((firstValues mixedValue mixedItems).length < mixedItems.length) [.next, .advance, .next] =
      (.spent, [.drawn (some (.ok 7)), .advanced (some (.of (.elementConversion 1))), .drawn none]) :=
    rfl
  refine ⟨first, c, w₁, E, w, begun, ?_, ?_, ?_⟩
  · rw [hreplies.trans (congrArg Prod.snd hafter)] at ran₃
    exact ran₃
  · rw [hposition]
    rfl
  · exact hexhausted.2 (congrArg Prod.fst hafter)

end

end Cursor

end Causeway
