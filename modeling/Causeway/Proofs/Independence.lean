import Causeway.Proofs.NativeWalks
/-!
# Independent traversals

Any number of cursors over one object, begun at any times and moved in any order, beside the views
they come from and the values drawn from them. Each owns its part of what was made since, and no
move of one touches the part of another: where it is and what it reports is up to its own calls.
-/
set_option autoImplicit false

namespace Causeway

open Act
open Cursor (Call Reply Rests)

variable {U α γ : Type} {env : Env U} {base : Handle → Option HeapEntry}
  {own T : Multiset (Handle × HeapEntry)} {units V : Multiset Handle} {start w w' : World U}
  {xs : List γ} {At : Nat → Payload → Prop} {p : Intake U α} {f : γ → Option α} {obj : Handle}
  {Is : γ → Handle → Multiset (Handle × HeapEntry) → Multiset Handle → Prop}

/-- The builtin sequences without empty slots, and the native collections all of whose items go out.
-/
inductive Reiterable (env : Env U) (base : Handle → Option HeapEntry) (obj : Handle) :
    {γ : Type} → List γ → (Nat → Payload → Prop) →
      (γ → Handle → Multiset (Handle × HeapEntry) → Multiset Handle → Prop) → Prop where
  | builtin {n : Nat} {body : Payload} {items : List Item} (found : base obj = some ⟨n, body⟩)
      (lists : body.Lists items) (kept : ∀ h, .held h ∈ items → ∃ e, base h = some e)
      (deep : env.Deep 2) : Reiterable env base obj items (body.Before obj) Item.Stands
  | collection {n d : Nat} {t : NativeType} {code : Option CodeId} {source : Source t}
      {Is : t.Value → Handle → Multiset (Handle × HeapEntry) → Multiset Handle → Prop}
      (found : base obj = some ⟨n, .native .collection (some (.collection ⟨t, code, source⟩))⟩)
      (kept : ∀ h ∈ source.units, ∃ e, base h = some e)
      (converts : Converts False env base code source.toList d Is) (deep : env.Deep (d + 2)) :
      Reiterable env base obj source.toList (Adapter.Before code source) Is

namespace Reiterable

theorem walk (h : Reiterable env base obj xs At Is) : Walk False env base xs At Is := by
  cases h with
  | @builtin _ body items found lists kept deep =>
    have hlists : body.Lists (items.map id) := by simpa using lists
    exact builtin_walk deep hlists found rfl (by simpa using kept)
  | collection found kept converts deep => exact adapter_walk deep converts

theorem opens (h : Reiterable env base obj xs At Is) : Opens False env base obj At := by
  cases h with
  | @builtin _ body items found lists kept deep =>
    have hlists : body.Lists (items.map id) := by simpa using lists
    intro own units w ho clear
    exact builtin_opens hlists found rfl ho clear
  | collection found kept converts deep => exact collection_opens found kept

theorem alive (h : Reiterable env base obj xs At Is) : ∃ e, base obj = some e := by
  cases h with
  | builtin found | collection found => exact ⟨_, found⟩

theorem deep (h : Reiterable env base obj xs At Is) : env.Deep 1 := by
  cases h with
  | builtin _ _ _ deep | collection _ _ _ deep => exact deep.of_le (by omega)

end Reiterable

def Place.seen (vs : List α) : Place → List α
  | on i => vs.take (i + 1)
  | owing | spent => vs

theorem Place.seen_begin (vs : List α) : (begin vs).seen vs = ((begin vs).value? vs).toList := by
  cases vs <;> simp [begin, seen, value?]

theorem Place.seen_step {vs : List α} {stopped : Bool} (call : Call) {place : Place}
    (hwithin : place.Within vs stopped) :
    (place.step vs stopped call).1.seen vs =
      place.seen vs ++ ((place.step vs stopped call).1.value? vs).toList := by
  cases place with
  | on i =>
    have hi : i < vs.length := hwithin
    by_cases hnext : i + 1 < vs.length
    · have hmore : vs.take (i + 1 + 1) = vs.take (i + 1) ++ vs[i + 1]?.toList := List.take_add_one
      cases call <;> simp only [step, hnext, if_true, seen, value?, hmore]
    · have hall : vs.take (i + 1) = vs := List.take_of_length_le (by omega)
      cases call <;> cases stopped <;> simp [step, hnext, seen, value?, hall]
  | owing | spent => cases call <;> simp [step, seen, value?]

theorem Cursor.Rests.shows {vs : List α} {valueUnits : α → List Handle} {place : Place}
    {c : Cursor α} (hc : Rests xs At Is valueUnits vs place c T V) :
    c.position = place.position vs ∧ c.get? = place.value? vs ∧
      (c.isExhausted = true ↔ place = .spent) := by
  cases hc with
  | on item value => exact ⟨rfl, value.symm, by simp [isExhausted]⟩
  | owing | spent => exact ⟨rfl, rfl, by simp [isExhausted]⟩

/-- A cursor with the calls made on it, what they replied, and the values it stood on. -/
structure Traversal (α : Type) where
  cursor : Cursor α
  calls : List Call
  replies : List (Reply α)
  seen : List α

namespace Traversal

def begun (c : Cursor α) : Traversal α := ⟨c, [], [], c.get?.toList⟩

def moved (t : Traversal α) (call : Call) (c : Cursor α) (reply : Reply α) : Traversal α :=
  ⟨c, t.calls ++ [call], t.replies ++ [reply], t.seen ++ c.get?.toList⟩

/-- All that can be told of a traversal is told by the place its calls lead to. -/
structure Reports (vs : List α) (stopped : Bool) (t : Traversal α) : Prop where
  begins : vs = [] → stopped = false
  replies : t.replies = (Place.after vs stopped t.calls).2
  seen : t.seen = (Place.after vs stopped t.calls).1.seen vs
  position : t.cursor.position = (Place.after vs stopped t.calls).1.position vs
  value : t.cursor.get? = (Place.after vs stopped t.calls).1.value? vs
  exhausted : t.cursor.isExhausted = true ↔ (Place.after vs stopped t.calls).1 = .spent

structure Alike (t t' : Traversal α) : Prop where
  calls : t.calls = t'.calls
  replies : t.replies = t'.replies
  seen : t.seen = t'.seen
  position : t.cursor.position = t'.cursor.position
  value : t.cursor.get? = t'.cursor.get?
  exhausted : t.cursor.isExhausted = t'.cursor.isExhausted

section

variable {vs : List α} {stopped : Bool} {t t' : Traversal α}

theorem Reports.alike (h : t.Reports vs stopped) (h' : t'.Reports vs stopped)
    (hcalls : t.calls = t'.calls) : t.Alike t' where
  calls := hcalls
  replies := by rw [h.replies, h'.replies, hcalls]
  seen := by rw [h.seen, h'.seen, hcalls]
  position := by rw [h.position, h'.position, hcalls]
  value := by rw [h.value, h'.value, hcalls]
  exhausted := by rw [Bool.eq_iff_iff, h.exhausted, h'.exhausted, hcalls]

/-- A traversal that came to its end stood on every value once, and reported the failure once if
there was one. -/
theorem Reports.complete (h : t.Reports vs stopped) (hend : t.cursor.isExhausted = true) :
    t.seen = vs ∧ t.replies.filterMap Reply.failure? =
      if stopped = true then [Place.refusal vs] else [] := by
  have hspent := h.exhausted.1 hend
  refine ⟨by rw [h.seen, hspent]; rfl, ?_⟩
  rw [h.replies, Place.after_failures h.begins, hspent]
  simp

theorem Reports.begun {valueUnits : α → List Handle} {c : Cursor α}
    (hbegin : vs = [] → stopped = false)
    (hc : Rests xs At Is valueUnits vs (Place.begin vs) c T V) :
    (begun c).Reports vs stopped := by
  obtain ⟨hposition, hvalue, hexhausted⟩ := hc.shows
  refine ⟨hbegin, rfl, ?_, hposition, hvalue, hexhausted⟩
  change c.get?.toList = (Place.begin vs).seen vs
  rw [Place.seen_begin, hvalue]

theorem Reports.moved {valueUnits : α → List Handle} {call : Call} {c : Cursor α} {reply : Reply α}
    (h : t.Reports vs stopped)
    (hreply : reply = ((Place.after vs stopped t.calls).1.step vs stopped call).2)
    (hc : Rests xs At Is valueUnits vs ((Place.after vs stopped t.calls).1.step vs stopped call).1 c
      T V) : (t.moved call c reply).Reports vs stopped := by
  obtain ⟨hposition, hvalue, hexhausted⟩ := hc.shows
  have hafter : Place.after vs stopped (t.calls ++ [call]) = _ := Place.after_concat t.calls call
  refine ⟨h.begins, ?_, ?_, ?_, ?_, ?_⟩
  · rw [Traversal.moved, hafter, h.replies, hreply]
  · rw [Traversal.moved, hafter, h.seen, hvalue, Place.seen_step call (Place.after_within t.calls)]
  · rw [Traversal.moved, hafter, hposition]
  · rw [Traversal.moved, hafter, hvalue]
  · rw [Traversal.moved, hafter, hexhausted]

end

end Traversal

/-- Cursors and views over one object: the traversals under way, those whose cursor was dropped,
what was reported where none began, how many views there are, and the values that were drawn and
not given up yet. -/
structure Traversals (α : Type) where
  live : List (Traversal α)
  dropped : List (Traversal α)
  refused : List Failure
  views : Nat
  drawn : List α

namespace Traversals

def idle : Traversals α := ⟨[], [], [], 0, []⟩

def all (s : Traversals α) : List (Traversal α) := s.live ++ s.dropped

end Traversals

def Cursor.Reply.value? : Reply α → Option α
  | .drawn (some (.ok v)) => some v
  | _ => none

theorem Cursor.Reply.units_eq (valueUnits : α → List Handle) (reply : Reply α) :
    reply.units valueUnits = reply.value?.toList.flatMap valueUnits := by
  cases reply with
  | advanced failure => rfl
  | drawn out =>
    cases out with
    | none => rfl
    | some r => cases r <;> simp [units, value?]

/-- One thing is done: a view is made, copied or closed, a cursor begins, is moved or is dropped, or
a value that was drawn is given up. -/
inductive Traversals.Step (env : Env U) (p : Intake U α) (obj : Handle) :
    Traversals α × World U → Traversals α × World U → Prop where
  | viewed {s : Traversals α} {w w' : World U} {view : Handle}
      (run : View.make obj env w = .done (.ok view) w') :
      Step env p obj (s, w) ({ s with views := s.views + 1 }, w')
  | copied {s : Traversals α} {w w' : World U} {view : Handle}
      (run : acquire obj env w = .done view w') :
      Step env p obj (s, w) ({ s with views := s.views + 1 }, w')
  | closed {s : Traversals α} {w w' : World U} {n : Nat} (views : s.views = n + 1)
      (run : release obj env w = .done () w') :
      Step env p obj (s, w) ({ s with views := n }, w')
  | begun {s : Traversals α} {w w' : World U} {c : Cursor α}
      (run : View.begin p obj env w = .done (.ok c) w') :
      Step env p obj (s, w) ({ s with live := .begun c :: s.live }, w')
  | refused {s : Traversals α} {w w' : World U} {failure : Failure}
      (run : View.begin p obj env w = .done (.error failure) w') :
      Step env p obj (s, w) ({ s with refused := failure :: s.refused }, w')
  | called {s : Traversals α} {w w' : World U} {before after : List (Traversal α)}
      {t : Traversal α} {call : Call} {c : Cursor α} {reply : Reply α}
      (live : s.live = before ++ t :: after)
      (run : Cursor.perform p call t.cursor env w = .done (c, reply) w') :
      Step env p obj (s, w) ({ s with
        live := before ++ t.moved call c reply :: after
        drawn := reply.value?.toList ++ s.drawn }, w')
  | dropped {s : Traversals α} {w w' : World U} {before after : List (Traversal α)}
      {t : Traversal α} (live : s.live = before ++ t :: after)
      (run : t.cursor.drop p env w = .done () w') :
      Step env p obj (s, w)
        ({ s with live := before ++ after, dropped := t :: s.dropped }, w')
  | givenUp {s : Traversals α} {w w' : World U} {before after : List α} {v : α}
      (drawn : s.drawn = before ++ v :: after) (run : releaseAll (p.units v) env w = .done () w') :
      Step env p obj (s, w) ({ s with drawn := before ++ after }, w')

/-- From a world in which nothing is under way, any things in any order. -/
def Traversals.Run (env : Env U) (p : Intake U α) (obj : Handle) (start : World U)
    (s : Traversals α) (w : World U) : Prop :=
  Relation.ReflTransGen (Step env p obj) (.idle, start) (s, w)

inductive Shares (xs : List γ) (At : Nat → Payload → Prop)
    (Is : γ → Handle → Multiset (Handle × HeapEntry) → Multiset Handle → Prop)
    (valueUnits : α → List Handle) (vs : List α) (stopped : Bool) :
    List (Traversal α) → Multiset (Handle × HeapEntry) → Multiset Handle → Prop where
  | nil : Shares xs At Is valueUnits vs stopped [] 0 0
  | cons {t : Traversal α} {ts : List (Traversal α)} {S T : Multiset (Handle × HeapEntry)}
      {V W : Multiset Handle}
      (rests : Rests xs At Is valueUnits vs (Place.after vs stopped t.calls).1 t.cursor T V)
      (others : Shares xs At Is valueUnits vs stopped ts S W) :
      Shares xs At Is valueUnits vs stopped (t :: ts) (T + S) (V + W)

/-- The part of one beside those of the others, whose parts stay as they are whatever becomes of
it. -/
theorem Shares.split {valueUnits : α → List Handle} {vs : List α} {stopped : Bool}
    {before after : List (Traversal α)} {t : Traversal α}
    (h : Shares xs At Is valueUnits vs stopped (before ++ t :: after) T V) :
    ∃ T₁ V₁ S W, T = T₁ + S ∧ V = V₁ + W ∧
      Rests xs At Is valueUnits vs (Place.after vs stopped t.calls).1 t.cursor T₁ V₁ ∧
      Shares xs At Is valueUnits vs stopped (before ++ after) S W ∧
      ∀ {t' : Traversal α} {T' V'},
        Rests xs At Is valueUnits vs (Place.after vs stopped t'.calls).1 t'.cursor T' V' →
        Shares xs At Is valueUnits vs stopped (before ++ t' :: after) (T' + S) (V' + W) := by
  -- the parts of those before it are put back in front on the way out
  induction before generalizing T V with
  | nil =>
    cases h with
    | cons rests others => exact ⟨_, _, _, _, rfl, rfl, rests, others, fun h => .cons h others⟩
  | cons b before ih =>
    cases h with
    | @cons _ _ S₀ T₀ V₀ W₀ rests others =>
      obtain ⟨T₁, V₁, S, W, rfl, rfl, hrests, hothers, hback⟩ := ih others
      refine ⟨T₁, V₁, T₀ + S, V₀ + W, add_left_comm _ _ _, add_left_comm _ _ _, hrests,
        .cons rests hothers, fun h => ?_⟩
      rw [add_left_comm, add_left_comm _ V₀]
      exact .cons rests (hback h)

def Traversals.held (s : Traversals α) (obj : Handle) (valueUnits : α → List Handle) :
    Multiset Handle :=
  .replicate s.views obj + ↑(s.drawn.flatMap valueUnits)

/-- What any moves keep: the parts of the traversals and what is held beside them are all there is
beside the base, and each traversal reports what its place says. -/
structure Traversals.Stands (base : Handle → Option HeapEntry) (p : Intake U α) (obj : Handle)
    (xs : List γ) (At : Nat → Payload → Prop)
    (Is : γ → Handle → Multiset (Handle × HeapEntry) → Multiset Handle → Prop) (f : γ → Option α)
    (s : Traversals α) (w : World U) : Prop where
  clear : w.pending = none
  reports : ∀ t ∈ s.all, t.Reports (firstValues f xs) ((firstValues f xs).length < xs.length)
  refused : ∀ failure ∈ s.refused,
    firstValues f xs = [] ∧ xs ≠ [] ∧ failure = .of (.elementConversion 0)
  shared : ∃ T V, Shares xs At Is p.units (firstValues f xs)
    ((firstValues f xs).length < xs.length) s.live T V ∧
      Overlay base T (V + s.held obj p.units) w.heap

namespace Traversals

variable {s s' : Traversals α}

theorem Stands.idle (ho : start.heap.InOrder) (clear : start.pending = none) :
    Stands start.heap.entryAt? p obj xs At Is f .idle start where
  clear := clear
  reports := by simp [all, Traversals.idle]
  refused := by simp [Traversals.idle]
  shared := ⟨0, 0, .nil, by simpa [held, Traversals.idle] using Overlay.start ho⟩

theorem Stands.of_held (hs : Stands base p obj xs At Is f s w) (hlive : s'.live = s.live)
    (hdropped : s'.dropped = s.dropped) (hrefused : s'.refused = s.refused)
    (hkept : ∀ {own units}, Overlay base own (units + s.held obj p.units) w.heap →
      w'.pending = none ∧ Overlay base own (units + s'.held obj p.units) w'.heap) :
    Stands base p obj xs At Is f s' w' := by
  obtain ⟨T, V, hshares, ho⟩ := hs.shared
  obtain ⟨clear, ho'⟩ := hkept ho
  exact ⟨clear, by simpa only [all, hlive, hdropped] using hs.reports, hrefused ▸ hs.refused, T, V,
    hlive ▸ hshares, ho'⟩

theorem held_view (s : Traversals α) (obj : Handle) (valueUnits : α → List Handle) :
    { s with views := s.views + 1 }.held obj valueUnits = {obj} + s.held obj valueUnits := by
  rw [held, held, Multiset.replicate_succ, ← Multiset.singleton_add, add_assoc]

theorem Stands.viewed (hobj : Reiterable env base obj xs At Is)
    (hs : Stands base p obj xs At Is f s w) {view : Handle}
    (run : View.make obj env w = .done (.ok view) w') :
    Stands base p obj xs At Is f { s with views := s.views + 1 } w' := by
  obtain ⟨e, he⟩ := hobj.alive
  refine hs.of_held rfl rfl rfl fun ho => ?_
  have hmade := make_overlay hobj.opens hobj.walk he ho hs.clear
  rw [run] at hmade
  obtain ⟨-, clear, ho'⟩ := hmade
  rw [held_view]
  exact ⟨clear, ho'.congr rfl (add_left_comm _ _ _)⟩

theorem Stands.copied (hobj : Reiterable env base obj xs At Is)
    (hs : Stands base p obj xs At Is f s w) {view : Handle}
    (run : acquire obj env w = .done view w') :
    Stands base p obj xs At Is f { s with views := s.views + 1 } w' := by
  obtain ⟨e, he⟩ := hobj.alive
  refine hs.of_held rfl rfl rfl fun ho => ?_
  obtain ⟨w₁, hacquire, hpending, ho'⟩ := acquire_overlay ho he env
  cases run.symm.trans hacquire
  rw [held_view]
  exact ⟨hpending.trans hs.clear, ho'.congr rfl (add_left_comm _ _ _)⟩

theorem Stands.closed (hobj : Reiterable env base obj xs At Is)
    (hs : Stands base p obj xs At Is f s w) {n : Nat} (hviews : s.views = n + 1)
    (run : release obj env w = .done () w') :
    Stands base p obj xs At Is f { s with views := n } w' := by
  have hheld : s.held obj p.units = {obj} + { s with views := n }.held obj p.units := by
    rw [← held_view, ← hviews]
  refine hs.of_held rfl rfl rfl fun ho => ?_
  rw [hheld, add_left_comm] at ho
  obtain ⟨w₁, hrelease, hpending, ho'⟩ := release_shared hobj.deep ho
  cases run.symm.trans hrelease
  exact ⟨hpending.trans hs.clear, ho'⟩

theorem Stands.givenUp (hobj : Reiterable env base obj xs At Is)
    (hs : Stands base p obj xs At Is f s w) {before after : List α} {v : α}
    (hdrawn : s.drawn = before ++ v :: after) (run : releaseAll (p.units v) env w = .done () w') :
    Stands base p obj xs At Is f { s with drawn := before ++ after } w' := by
  have hheld : s.held obj p.units =
      ↑(p.units v) + { s with drawn := before ++ after }.held obj p.units := by
    simp only [held, hdrawn, List.flatMap_append, List.flatMap_cons, ← Multiset.coe_add]
    abel
  refine hs.of_held rfl rfl rfl fun ho => ?_
  rw [hheld, add_left_comm] at ho
  obtain ⟨w₁, hrelease, hpending, ho'⟩ := releaseAll_shared (p.units v) hobj.deep ho
  cases run.symm.trans hrelease
  exact ⟨hpending.trans hs.clear, ho'⟩

/-- A pass that fails at once does so at the first element; otherwise there is none or it has a
value. -/
theorem Stands.begun (hobj : Reiterable env base obj xs At Is) (hp : p.Reads False env base xs Is f)
    (hs : Stands base p obj xs At Is f s w) {c : Cursor α}
    (run : View.begin p obj env w = .done (.ok c) w') :
    Stands base p obj xs At Is f { s with live := .begun c :: s.live } w' := by
  obtain ⟨T, V, hshares, ho⟩ := hs.shared
  have hbegin := Cursor.begin_overlay hobj.opens hobj.walk hp ho hs.clear
  rw [run] at hbegin
  obtain ⟨clear, hempty, T', V', hrests, ho'⟩ := hbegin
  have hstop (h : firstValues f xs = []) :
      decide ((firstValues f xs).length < xs.length) = false := by simp [hempty h]
  refine ⟨clear, ?_, hs.refused, T' + T, V' + V, .cons hrests hshares,
    ho'.congr rfl (add_assoc _ _ _).symm⟩
  exact List.forall_mem_cons.2 ⟨.begun hstop hrests, hs.reports⟩

theorem Stands.refusing (hobj : Reiterable env base obj xs At Is)
    (hp : p.Reads False env base xs Is f) (hs : Stands base p obj xs At Is f s w)
    {failure : Failure} (run : View.begin p obj env w = .done (.error failure) w') :
    Stands base p obj xs At Is f { s with refused := failure :: s.refused } w' := by
  obtain ⟨T, V, hshares, ho⟩ := hs.shared
  have hbegin := Cursor.begin_overlay hobj.opens hobj.walk hp ho hs.clear
  rw [run] at hbegin
  obtain ⟨clear, hnil, hne, hfailure, ho'⟩ := hbegin
  exact ⟨clear, hs.reports, List.forall_mem_cons.2 ⟨⟨hnil, hne, hfailure⟩, hs.refused⟩, T, V,
    hshares, ho'⟩

/-- A move changes the part of the cursor that is moved, and hands over what it draws. -/
theorem Stands.called (hobj : Reiterable env base obj xs At Is)
    (hp : p.Reads False env base xs Is f) (hs : Stands base p obj xs At Is f s w)
    {before after : List (Traversal α)} {t : Traversal α} {call : Call} {c : Cursor α}
    {reply : Reply α} (hlive : s.live = before ++ t :: after)
    (run : Cursor.perform p call t.cursor env w = .done (c, reply) w') :
    Stands base p obj xs At Is f { s with
      live := before ++ t.moved call c reply :: after
      drawn := reply.value?.toList ++ s.drawn } w' := by
  obtain ⟨T, V, hshares, ho⟩ := hs.shared
  rw [hlive] at hshares
  -- the frame of the move: the parts of the others, and all that is held beside them
  obtain ⟨T₁, V₁, S, W, rfl, rfl, hrests, -, hback⟩ := hshares.split
  rw [add_assoc] at ho
  have hmove := Cursor.perform_overlay hobj.walk hp call hrests ho hs.clear
  rw [run] at hmove
  obtain ⟨clear, hreply, T', V', hrests', ho'⟩ := hmove
  have hafter : (Place.after (firstValues f xs) ((firstValues f xs).length < xs.length)
      (t.moved call c reply).calls).1 = _ := congrArg Prod.fst (Place.after_concat t.calls call)
  refine ⟨clear, ?_, hs.refused, T' + S, V' + W, hback (hafter ▸ hrests'), ho'.congr rfl ?_⟩
  · have hreports := hs.reports
    simp only [all, hlive, List.mem_append, List.mem_cons] at hreports ⊢
    rintro t' ((hbefore | rfl | hafter) | hdropped)
    · exact hreports t' (.inl (.inl hbefore))
    · exact (hreports t (.inl (.inr (.inl rfl)))).moved hreply hrests'
    · exact hreports t' (.inl (.inr (.inr hafter)))
    · exact hreports t' (.inr hdropped)
  · simp only [held, List.flatMap_append, ← Multiset.coe_add, Cursor.Reply.units_eq]
    abel

theorem Stands.dropping (hobj : Reiterable env base obj xs At Is)
    (hp : p.Reads False env base xs Is f) (hs : Stands base p obj xs At Is f s w)
    {before after : List (Traversal α)} {t : Traversal α} (hlive : s.live = before ++ t :: after)
    (run : t.cursor.drop p env w = .done () w') :
    Stands base p obj xs At Is f
      { s with live := before ++ after, dropped := t :: s.dropped } w' := by
  obtain ⟨T, V, hshares, ho⟩ := hs.shared
  rw [hlive] at hshares
  obtain ⟨T₁, V₁, S, W, rfl, rfl, hrests, hothers, -⟩ := hshares.split
  rw [add_assoc] at ho
  have hdrop := Cursor.drop_overlay hobj.walk hp hrests ho
  rw [run] at hdrop
  obtain ⟨hpending, ho'⟩ := hdrop
  refine ⟨hpending.trans hs.clear, fun t' ht' => hs.reports t' ?_, hs.refused, S, W, hothers, ho'⟩
  simp only [all, hlive, List.mem_append, List.mem_cons] at ht' ⊢
  tauto

theorem Stands.step (hobj : Reiterable env base obj xs At Is) (hp : p.Reads False env base xs Is f)
    (hs : Stands base p obj xs At Is f s w) (hstep : Step env p obj (s, w) (s', w')) :
    Stands base p obj xs At Is f s' w' := by
  cases hstep with
  | viewed run => exact hs.viewed hobj run
  | copied run => exact hs.copied hobj run
  | closed views run => exact hs.closed hobj views run
  | begun run => exact hs.begun hobj hp run
  | refused run => exact hs.refusing hobj hp run
  | called live run => exact hs.called hobj hp live run
  | dropped live run => exact hs.dropping hobj hp live run
  | givenUp drawn run => exact hs.givenUp hobj drawn run

theorem Run.stands (hobj : Reiterable env start.heap.entryAt? obj xs At Is)
    (hp : p.Reads False env start.heap.entryAt? xs Is f) (ho : start.heap.InOrder)
    (clear : start.pending = Option.none) (hrun : Run env p obj start s w) :
    Stands start.heap.entryAt? p obj xs At Is f s w := by
  suffices hall : ∀ x, Relation.ReflTransGen (Step env p obj) (.idle, start) x →
      Stands start.heap.entryAt? p obj xs At Is f x.1 x.2 from hall (s, w) hrun
  intro x hx
  induction hx with
  | refl => exact .idle ho clear
  | tail _ hstep ih => exact ih.step hobj hp hstep

/-- Whatever calls are made, a traversal can be alone with them, unless no pass can begin. -/
theorem exists_alone (hobj : Reiterable env start.heap.entryAt? obj xs At Is)
    (hp : p.Reads False env start.heap.entryAt? xs Is f) (ho : start.heap.InOrder)
    (clear : start.pending = none) (hempty : firstValues f xs = [] → xs = []) (calls : List Call) :
    ∃ t drawn w', Run env p obj start ⟨[t], [], [], 0, drawn⟩ w' ∧ t.calls = calls := by
  induction calls using List.reverseRecOn with
  | nil =>
    obtain ⟨r, w₁, hrun, -, h₁⟩ := (Cursor.begin_overlay hobj.opens hobj.walk hp (.start ho)
      clear).exists_done
    cases r with
    | error failure => exact absurd (hempty h₁.1) h₁.2.1
    | ok c => exact ⟨.begun c, [], w₁, .single (.begun hrun), rfl⟩
  | append_singleton calls call ih =>
    obtain ⟨t, drawn, w₁, hrun, rfl⟩ := ih
    have hs := Run.stands hobj hp ho clear hrun
    obtain ⟨T, V, hshares, ho₁⟩ := hs.shared
    obtain ⟨T₁, V₁, S, W, rfl, rfl, hrests, -, -⟩ := 
      Shares.split (show Shares _ _ _ _ _ _ ([] ++ t :: []) _ _ from hshares)
    rw [add_assoc] at ho₁
    obtain ⟨⟨c, reply⟩, w₂, hmove, -⟩ :=
      (Cursor.perform_overlay hobj.walk hp call hrests ho₁ hs.clear).exists_done
    have hstep := hrun.tail (.called (show _ = [] ++ t :: [] from rfl) hmove)
    exact ⟨t.moved call c reply, _, w₂, hstep, rfl⟩

structure Independent (env : Env U) (p : Intake U α) (obj : Handle) (xs : List γ)
    (f : γ → Option α) (start : World U) (s : Traversals α) (w : World U) : Prop where
  clear : w.pending = Option.none
  reports : ∀ t ∈ s.all, t.Reports (firstValues f xs) ((firstValues f xs).length < xs.length)
  /-- Each of them might as well be the only one. -/
  alone : ∀ t ∈ s.all, ∃ t' drawn w', Run env p obj start ⟨[t'], [], [], 0, drawn⟩ w' ∧ t.Alike t'
  /-- Those that came to their end went through the same. -/
  complete : ∀ t ∈ s.all, t.cursor.isExhausted = true → t.seen = firstValues f xs ∧
    t.replies.filterMap Reply.failure? =
      if (firstValues f xs).length < xs.length then [Place.refusal (firstValues f xs)] else []
  /-- Where one does not begin, none does. -/
  refused : ∀ failure ∈ s.refused, firstValues f xs = [] ∧ xs ≠ [] ∧
    failure = .of (.elementConversion 0) ∧
      ∃ w', View.begin p obj env start = .done (.error failure) w'
  begins : ∃ r w', View.begin p obj env w = .done r w'
  moves : ∀ t ∈ s.live, ∀ call, ∃ r w', Cursor.perform p call t.cursor env w = .done r w'
  drops : ∀ t ∈ s.live, ∃ w', t.cursor.drop p env w = .done () w'
  /-- When the cursors are dropped, and what they handed over and the views are given up, all is as
  it was. -/
  restored : s.live = [] → s.views = 0 → s.drawn.flatMap p.units = [] →
    ∀ h, w.heap.entryAt? h = start.heap.entryAt? h

/-- Cursors over an object that starts over do not meet: whatever is done with the others, each
reports what it would report alone, and together they leave nothing behind. -/
theorem Run.independent (hobj : Reiterable env start.heap.entryAt? obj xs At Is)
    (hp : p.Reads False env start.heap.entryAt? xs Is f) (ho : start.heap.InOrder)
    (clear : start.pending = Option.none) (hrun : Run env p obj start s w) :
    Independent env p obj xs f start s w := by
  have hs := Run.stands hobj hp ho clear hrun
  obtain ⟨T, V, hshares, ho'⟩ := hs.shared
  have hpart (t : Traversal α) (ht : t ∈ s.live) : ∃ T₁ V₁ own units,
      Rests xs At Is p.units (firstValues f xs) (Place.after (firstValues f xs)
        ((firstValues f xs).length < xs.length) t.calls).1 t.cursor T₁ V₁ ∧
      Overlay start.heap.entryAt? (T₁ + own) (V₁ + units) w.heap := by
    obtain ⟨before, after, hlive⟩ := List.append_of_mem ht
    rw [hlive] at hshares
    obtain ⟨T₁, V₁, S, W, rfl, rfl, hrests, -, -⟩ := hshares.split
    exact ⟨T₁, V₁, S, _, hrests, ho'.congr rfl (add_assoc _ _ _)⟩
  have hbegin {own units} {w : World U} (ho : Overlay start.heap.entryAt? own units w.heap)
      (clear : w.pending = Option.none) :=
    (Cursor.begin_overlay hobj.opens hobj.walk hp ho clear).exists_done
  refine ⟨hs.clear, hs.reports, fun t ht => ?_, fun t ht hend => ?_, fun failure hf => ?_, ?_,
    fun t ht call => ?_, fun t ht => ?_, fun hlive hviews hdrawn => ?_⟩
  · have hempty (hnil : firstValues f xs = []) : xs = [] := by
      simpa [hnil] using (hs.reports t ht).begins hnil
    obtain ⟨t', drawn, w', hrun', hcalls⟩ := exists_alone hobj hp ho clear hempty t.calls
    have hreports := (Run.stands hobj hp ho clear hrun').reports t' (by simp [all])
    exact ⟨t', drawn, w', hrun', (hs.reports t ht).alike hreports hcalls.symm⟩
  · simpa using (hs.reports t ht).complete hend
  · obtain ⟨hnil, hne, rfl⟩ := hs.refused failure hf
    obtain ⟨r, w', hr, -, h⟩ := hbegin (.start ho) clear
    cases r with
    | ok c => exact absurd (h.1 hnil) hne
    | error failure =>
      obtain ⟨-, -, rfl, -⟩ := h
      exact ⟨hnil, hne, rfl, w', hr⟩
  · obtain ⟨r, w', hr, -⟩ := hbegin ho' hs.clear
    exact ⟨r, w', hr⟩
  · obtain ⟨T₁, V₁, own, units, hrests, ho₁⟩ := hpart t ht
    obtain ⟨r, w', hr, -⟩ :=
      (Cursor.perform_overlay hobj.walk hp call hrests ho₁ hs.clear).exists_done
    exact ⟨r, w', hr⟩
  · obtain ⟨T₁, V₁, own, units, hrests, ho₁⟩ := hpart t ht
    obtain ⟨⟨⟩, w', hr, -⟩ := (Cursor.drop_overlay hobj.walk hp hrests ho₁).exists_done
    exact ⟨w', hr⟩
  · rw [hlive] at hshares
    cases hshares
    exact (ho'.congr rfl (by simp [held, hviews, hdrawn])).entryAt?_eq

def sevenEight : Source .i64 := .listed [(7 : Int64), (8 : Int64)] true

def sevenEightWorld : World Unit where
  heap := (Heap.empty.insert (.native .collection (some (.collection ⟨.i64, none, sevenEight⟩)))).2
  pending := none
  settings := {}
  client := ()

def sevenEightEnv : Env Unit := .tie (fun _ u => u) (fun _ => .exhausted) 3

/-- The second cursor begins after the first has drawn a value, and is on that value. -/
theorem Run.independent_sevenEight :
    ∃ (s : Traversals Int64) (w : World Unit) (t t' : Traversal Int64),
    Run sevenEightEnv (builtinIntake .i64) ⟨0, 0⟩ sevenEightWorld s w ∧ s.live = [t, t'] ∧
      t.cursor.get? = some 7 ∧ t'.replies = [.drawn (some (.ok 7))] ∧ t'.cursor.get? = some 8 := by
  have deep : sevenEightEnv.Deep 3 := tie_deep _ _ 3
  have hsize : ∀ v ∈ sevenEight.toList, NativeType.i64.size v ≤ 1 := fun _ _ => le_rfl
  have hfits : ∀ v ∈ sevenEight.toList, NativeType.i64.Fits v := fun _ _ => trivial
  have hroom : ∀ v ∈ sevenEight.toList, NativeType.i64.Roomy v := fun _ _ => trivial
  have hobj : Reiterable sevenEightEnv sevenEightWorld.heap.entryAt? ⟨0, 0⟩ sevenEight.toList
      (Adapter.Before none sevenEight) (NativeType.i64.Became 1) :=
    .collection (n := 1) rfl nofun
      (toPeer_converts (deep.of_le (by omega)) hsize hfits hroom nofun) deep
  have hreads : (builtinIntake .i64).Reads False sevenEightEnv sevenEightWorld.heap.entryAt?
      sevenEight.toList (NativeType.i64.Became 1) fun v => some v :=
    fromPeer_reads trivial (deep.of_le (by omega)) (fun v hv => (hsize v hv).trans (by decide))
      hfits hroom
  have hin : sevenEightWorld.heap.InOrder := Heap.insert_inOrder Heap.empty_inOrder _
  have hindependent {s : Traversals Int64} {w : World Unit}
      (hrun : Run sevenEightEnv (builtinIntake .i64) ⟨0, 0⟩ sevenEightWorld s w) :=
    Run.independent hobj hreads hin rfl hrun
  have hbegin {s : Traversals Int64} {w : World Unit}
      (hrun : Run sevenEightEnv (builtinIntake .i64) ⟨0, 0⟩ sevenEightWorld s w) :
      ∃ c w', Run sevenEightEnv (builtinIntake .i64) ⟨0, 0⟩ sevenEightWorld
        { s with live := .begun c :: s.live } w' := by
    obtain ⟨r, w', hr⟩ := (hindependent hrun).begins
    cases r with
    | ok c => exact ⟨c, w', hrun.tail (.begun hr)⟩
    | error failure =>
      have hnil := (hindependent (hrun.tail (.refused hr))).refused failure List.mem_cons_self
      exact absurd hnil.1 (List.cons_ne_nil _ _)
  obtain ⟨c, w₁, h₁⟩ := hbegin .refl
  obtain ⟨⟨c', reply⟩, w₂, hmove⟩ := (hindependent h₁).moves (.begun c) List.mem_cons_self .next
  have h₂ := h₁.tail (.called (show _ = [] ++ .begun c :: [] from rfl) hmove)
  obtain ⟨d, w₃, h₃⟩ := hbegin h₂
  have hreports := (hindependent h₃).reports
  refine ⟨_, w₃, .begun d, (Traversal.begun c).moved .next c' reply, h₃, rfl, ?_, ?_, ?_⟩
  · exact (hreports (.begun d) List.mem_cons_self).value
  · exact (hreports _ (List.mem_cons_of_mem _ List.mem_cons_self)).replies
  · exact (hreports _ (List.mem_cons_of_mem _ List.mem_cons_self)).value

end Traversals

end Causeway
