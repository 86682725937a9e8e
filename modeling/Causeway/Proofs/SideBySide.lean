import Causeway.Proofs.Probes
/-!
# Two runs side by side

The same action from two worlds that may differ in the settings and in what the client keeps. A bond
says how they may differ, and which objects there may be. Under a tolerant bond raising over a
pending error is the same on both sides, whatever it is. Otherwise the sides may be of different
strictness, so nothing may be raised while an error is pending: then the indicator has to be clear
wherever something could be raised, and each rule says from where to where it is.
-/
set_option autoImplicit false

namespace Causeway

open Act

variable {U α β γ : Type}

/-- Its converter, if it has one, is the builtin one. -/
def NativeState.Plain : NativeState → Prop
  | .adapter a => a.convert = none
  | .collection c => c.convert = none
  | .scripted _ => True

structure Payload.Plain (p : Payload) : Prop where
  stock : p.Stock
  state : ∀ d s, p = .native d (some s) → s.Plain

def Payload.isNative : Payload → Bool
  | .native _ _ => true
  | _ => false

theorem Payload.plain_of_not_native {p : Payload} (hp : p.isNative = false) : p.Plain where
  stock d s h := by
    rw [h] at hp
    cases hp
  state d s h := by
    rw [h] at hp
    cases hp

/-- What two worlds that run side by side have in common. -/
structure Bond (U : Type) where
  settings : Settings → Settings → Prop
  client : U → U → Prop
  /-- Peer functions may be called. -/
  calls : Prop
  /-- There may be objects with user code behind their slots. -/
  wild : Prop
  /-- Both sides are equally strict. -/
  tolerant : Prop
  traces : ∀ {s s' : Settings}, settings s s' → s.traceReferences = s'.traceReferences
  strictness : tolerant → ∀ {s s' : Settings}, settings s s' →
    s.strictIndicator = s'.strictIndicator
  tolerant_of_wild : wild → tolerant

theorem Adapter.peek_convert (a : Adapter) : a.peek.2.1.convert = a.convert := by
  unfold peek
  split
  · rfl
  · split <;> rfl

theorem Adapter.step_convert (a : Adapter) :
    (a.step : Act U (Adapter × Option Handle)).Answers fun r => r.1.convert = a.convert := by
  refine .bind fun _ => ?_
  split
  · exact .pure rfl
  · have hpeek := a.peek_convert
    split
    · rename_i heq
      rw [heq] at hpeek
      exact .bind fun _ => .bind fun _ => .pure hpeek
    · rename_i heq
      rw [heq] at hpeek
      refine .bind fun _ => .bind fun _ => ?_
      split
      · exact .bind fun _ => .pure hpeek
      · exact .bind fun _ => .pure hpeek

/-- Both come back alike, or fault alike, or neither comes to an end; `R` is what the client's two
states have in common. -/
inductive Outcome.Coincides (R : U → U → Prop) : Outcome U α → Outcome U α → Prop where
  | done {w w' : World U} (a : α) (heap : w.heap = w'.heap) (pending : w.pending = w'.pending)
    (client : R w.client w'.client) : Coincides R (.done a w) (.done a w')
  | fault {w w' : World U} (c : Fault) (heap : w.heap = w'.heap)
    (pending : w.pending = w'.pending) (client : R w.client w'.client) :
    Coincides R (.fault c w) (.fault c w')
  | unfinished : Coincides R .unfinished .unfinished

/-- There was no room. What the fault unwinds through may not have come to an end. -/
inductive Outcome.Overflows : Outcome U α → Prop where
  | fault (w : World U) : Overflows (.fault .capacityOverflow w)
  | unfinished : Overflows .unfinished

namespace Bond

variable {b : Bond U} {env env' : Env U} {short pre pre' : Prop} {h : Handle} {p : Payload}

def Fits (b : Bond U) (p : Payload) : Prop := b.wild ∨ p.Plain

def FitsState (b : Bond U) (s : NativeState) : Prop := b.wild ∨ s.Plain

def FitsHeap (b : Bond U) (heap : Heap) : Prop := ∀ h p, heap.payload? h = some p → b.Fits p

structure Holds (b : Bond U) (w w' : World U) : Prop where
  heap : w.heap = w'.heap
  pending : w.pending = w'.pending
  settings : b.settings w.settings w'.settings
  client : b.client w.client w'.client
  fits : b.FitsHeap w.heap

def Settled (b : Bond U) (w : World U) : Prop := b.tolerant ∨ w.pending = none

/-- Both sides end in one way; with an answer of which `C` holds the indicator is settled. Neither
side ends in a fault that only strictness makes. -/
def Matches (b : Bond U) (C : α → Prop) : Outcome U α → Outcome U α → Prop
  | .done a w, .done a' w' => a = a' ∧ b.Holds w w' ∧ (C a → b.Settled w)
  | .fault c w, .fault c' w' =>
    c = c' ∧ b.Holds w w' ∧ (b.tolerant ∨ ∀ e, c ≠ .raisedOverPending e)
  | .unfinished, .unfinished => True
  | _, _ => False

/-- From bound worlds, settled ones if `pre` says so, the act does the same. -/
def Agrees (b : Bond U) (env env' : Env U) (pre : Prop) (act : Act U α) (C : α → Prop) : Prop :=
  ∀ w w', b.Holds w w' → (pre → b.Settled w) → b.Matches C (act env w) (act env' w')

/-- As `Agrees`; but if `short`, the first side may find that there is no room. -/
def AgreesUnless (b : Bond U) (env env' : Env U) (short pre : Prop) (act : Act U α)
    (C : α → Prop) : Prop :=
  ∀ w w', b.Holds w w' → (pre → b.Settled w) →
    b.Matches C (act env w) (act env' w') ∨ short ∧ (act env w).Overflows

def Yields (b : Bond U) (env : Env U) (act : Act U α) (P : α → Prop) : Prop :=
  ∀ w a w', b.FitsHeap w.heap → act env w = .done a w' → P a

theorem settled_of_wild (hb : b.wild) (w : World U) : b.Settled w := .inl (b.tolerant_of_wild hb)

namespace FitsHeap

variable {heap next : Heap}

/-- What each object holds it held before, but for the one that was written. -/
theorem of_payload? (hfits : b.FitsHeap heap) (hp : b.Fits p)
    (hnext : ∀ k q, next.payload? k = some q → q = p ∨ heap.payload? k = some q) :
    b.FitsHeap next := by
  intro k q hq
  obtain rfl | hold := hnext k q hq
  · exact hp
  · exact hfits k q hold

theorem setPayload (hfits : b.FitsHeap heap) (hp : b.Fits p) (h : Handle) :
    b.FitsHeap (heap.setPayload h p) := by
  cases found : heap.payload? h with
  | none =>
    have hentry : heap.entryAt? h = none := by simpa [Heap.payload?] using found
    rwa [show heap.setPayload h p = heap by simp [Heap.setPayload, hentry]]
  | some old =>
    refine hfits.of_payload? hp fun k q hq => ?_
    rw [Heap.setPayload_payload? found] at hq
    split at hq
    · exact .inl (Option.some.inj hq).symm
    · exact .inr hq

theorem insert (hfits : b.FitsHeap heap) (hp : b.Fits p) : b.FitsHeap (heap.insert p).2 := by
  -- every slot of the new heap holds the object or is a slot of the old one
  have hslots : ∀ (i : Nat) (s : HeapSlot), (heap.insert p).2.slots[i]? = some s →
      s.entry = some ⟨1, p⟩ ∨ heap.slots[i]? = some s := by
    have hpush (i : Nat) (s : HeapSlot) (hs : (heap.push p).2.slots[i]? = some s) :
        s.entry = some ⟨1, p⟩ ∨ heap.slots[i]? = some s := by
      simp only [Heap.push, Array.getElem?_push] at hs
      split at hs
      · exact .inl (by rw [← Option.some.inj hs])
      · exact .inr hs
    unfold Heap.insert
    split
    · exact hpush
    · split
      · exact hpush
      · intro i s hs
        simp only [Array.getElem?_setIfInBounds] at hs
        split at hs
        · split at hs
          · exact .inl (by rw [← Option.some.inj hs])
          · cases hs
        · exact .inr hs
  refine hfits.of_payload? hp fun k q hq => ?_
  obtain ⟨e, he, rfl⟩ := (Heap.payload?_eq_some_iff _ _ _).1 hq
  obtain hnew | hold := hslots _ _ ((Heap.entryAt?_eq_some_iff _ _ _).1 he)
  · exact .inl (by rw [Option.some.inj hnew])
  · exact .inr ((Heap.payload?_eq_some_iff _ _ _).2
      ⟨e, (Heap.entryAt?_eq_some_iff _ _ _).2 hold, rfl⟩)

theorem empty : b.FitsHeap .empty := by
  intro h p hp
  simp [Heap.empty, Heap.payload?, Heap.entryAt?] at hp

theorem increment? {n : Nat} (hfits : b.FitsHeap heap)
    (hi : heap.increment? h = some (n, next)) : b.FitsHeap next :=
  fun k q hq => hfits k q ((Heap.increment?_payload? hi k).symm.trans hq)

theorem decrement? {r : Released} (hfits : b.FitsHeap heap)
    (hd : heap.decrement? h = some (r, next)) : b.FitsHeap next := by
  intro k q hq
  cases r with
  | alive n => exact hfits k q ((Heap.decrement?_alive_payload? hd k).symm.trans hq)
  | dead p =>
    rw [(Heap.decrement?_dead_payload? hd).2] at hq
    split at hq
    · cases hq
    · exact hfits k q hq

end FitsHeap

theorem Matches.mono {C D : α → Prop} {o o' : Outcome U α} (h : b.Matches C o o')
    (hD : ∀ a, D a → C a) : b.Matches D o o' := by
  cases o <;> cases o'
  case done.done a w a' w' => exact ⟨h.1, h.2.1, fun ha => h.2.2 (hD a ha)⟩
  all_goals exact h

theorem Matches.coincides {C : α → Prop} {o o' : Outcome U α} (h : b.Matches C o o') :
    o.Coincides b.client o' := by
  cases o <;> cases o'
  case done.done =>
    obtain ⟨rfl, hw, -⟩ := h
    exact .done _ hw.heap hw.pending hw.client
  case fault.fault =>
    obtain ⟨rfl, hw, -⟩ := h
    exact .fault _ hw.heap hw.pending hw.client
  case unfinished.unfinished => exact .unfinished
  all_goals exact h.elim

theorem Yields.of_answers {act : Act U α} {P : α → Prop} (h : act.Answers P) :
    b.Yields env act P := fun w a w' _ => h env w a w'

theorem Yields.payload {f : Option Payload → Act U β} {P : β → Prop}
    (hf : ∀ o, (∀ p, o = some p → b.Fits p) → (f o).Answers P) :
    b.Yields env (Act.heap (·.payload? h) >>= f) P :=
  fun w a w' hfits hrun => hf (w.heap.payload? h) (hfits h) env w a w' hrun

theorem Agrees.unless {C : α → Prop} {act : Act U α} (h : b.Agrees env env' pre act C) :
    b.AgreesUnless env env' short pre act C := fun w w' hw hs => .inl (h w w' hw hs)

namespace AgreesUnless

variable {C D : α → Prop} {E : β → Prop} {act : Act U α} {P : α → Prop}

theorem agrees (h : b.AgreesUnless env env' False pre act C) : b.Agrees env env' pre act C :=
  fun w w' hw hs => (h w w' hw hs).resolve_right fun hshort => hshort.1

theorem weaken (h : b.AgreesUnless env env' short pre act C) (hD : ∀ a, D a → C a) :
    b.AgreesUnless env env' short pre act D :=
  fun w w' hw hs => (h w w' hw hs).imp_left fun hout => hout.mono hD

theorem under (h : b.AgreesUnless env env' short pre' act C) (hpre : pre' → pre) :
    b.AgreesUnless env env' short pre act C := fun w w' hw hs => h w w' hw fun hp => hs (hpre hp)

theorem anyhow (h : b.AgreesUnless env env' short pre act C) :
    b.AgreesUnless env env' short pre act fun _ => False := h.weaken fun _ => False.elim

theorem next_yields {x : Act U α} {f : α → Act U β} (hx : b.AgreesUnless env env' short pre x C)
    (hP : b.Yields env x P) (hf : ∀ a, P a → b.AgreesUnless env env' short (C a) (f a) E) :
    b.AgreesUnless env env' short pre (x >>= f) E := by
  intro w w' hw hs
  rw [bind_run, bind_run]
  obtain hout | ⟨hshort, hover⟩ := hx w w' hw hs
  · cases ho : x env w <;> cases ho' : x env' w' <;> rw [ho, ho'] at hout
    case done.done a w₁ a' w₁' =>
      obtain ⟨rfl, hw₁, hs₁⟩ := hout
      exact hf a (hP w a w₁ hw.fits ho) w₁ w₁' hw₁ hs₁
    all_goals first | exact .inl hout | exact hout.elim
  · refine .inr ⟨hshort, ?_⟩
    generalize x env w = o at hover
    cases hover with
    | fault w₁ => exact .fault w₁
    | unfinished => exact .unfinished

theorem next {x : Act U α} {f : α → Act U β} (hx : b.AgreesUnless env env' short pre x C)
    (hf : ∀ a, b.AgreesUnless env env' short (C a) (f a) E) :
    b.AgreesUnless env env' short pre (x >>= f) E :=
  hx.next_yields (P := fun _ => True) (fun _ _ _ _ _ => trivial) fun a _ => hf a

/-- What is given back on the way out is the same if both sides are on the way out. -/
theorem onFault {cleanup : Act U Unit} (hact : b.AgreesUnless env env' short pre act C)
    (hclean : b.Agrees env env' False cleanup fun _ => False) :
    b.AgreesUnless env env' short pre (act.onFault cleanup) C := by
  intro w w' hw hs
  unfold Act.onFault
  obtain hout | ⟨hshort, hover⟩ := hact w w' hw hs
  · cases ho : act env w <;> cases ho' : act env' w' <;> rw [ho, ho'] at hout
    case fault.fault c w₁ c' w₁' =>
      obtain ⟨rfl, hw₁, hc⟩ := hout
      have hout₁ := hclean w₁ w₁' hw₁ False.elim
      dsimp only
      cases hr : cleanup env w₁ <;> cases hr' : cleanup env' w₁' <;> rw [hr, hr'] at hout₁
      case done.done => exact .inl ⟨rfl, hout₁.2.1, hc⟩
      case fault.fault => exact .inl ⟨rfl, hout₁.2.1, hc⟩
      all_goals first | exact .inl hout₁ | exact hout₁.elim
    all_goals first | exact .inl hout | exact hout.elim
  · refine .inr ⟨hshort, ?_⟩
    generalize act env w = o at hover
    cases hover with
    | fault w₁ =>
      dsimp only
      cases cleanup env w₁ with
      | done _ w₂ => exact .fault w₂
      | fault _ w₂ => exact .fault w₂
      | unfinished => exact .unfinished
    | unfinished => exact .unfinished

end AgreesUnless

namespace Agrees

variable {C D : α → Prop} {E : β → Prop} {act : Act U α} {P : α → Prop}

theorem weaken (h : b.Agrees env env' pre act C) (hD : ∀ a, D a → C a) :
    b.Agrees env env' pre act D := fun w w' hw hs => (h w w' hw hs).mono hD

theorem under (h : b.Agrees env env' pre' act C) (hpre : pre' → pre) :
    b.Agrees env env' pre act C := fun w w' hw hs => h w w' hw fun hp => hs (hpre hp)

theorem anyhow (h : b.Agrees env env' pre act C) : b.Agrees env env' pre act fun _ => False :=
  h.weaken fun _ => False.elim

theorem of_wild (hb : b.wild)
    (h : ∀ w w', b.Holds w w' → b.Matches C (act env w) (act env' w')) :
    b.Agrees env env' pre act D := by
  intro w w' hw _
  have hout := h w w' hw
  cases ho : act env w <;> cases ho' : act env' w' <;> rw [ho, ho'] at hout
  case done.done a w₁ a' w₁' => exact ⟨hout.1, hout.2.1, fun _ => settled_of_wild hb w₁⟩
  all_goals exact hout

theorem unmoved (h : b.Agrees env env' pre act C)
    (hsame : ∀ w a w₁, act env w = .done a w₁ → w₁.pending = w.pending) :
    b.Agrees env env' pre act fun _ => pre := by
  intro w w' hw hs
  have hout := h w w' hw hs
  cases ho : act env w <;> cases ho' : act env' w' <;> rw [ho, ho'] at hout
  case done.done a w₁ a' w₁' =>
    refine ⟨hout.1, hout.2.1, fun hpre => ?_⟩
    unfold Settled
    rw [hsame w a w₁ ho]
    exact hs hpre
  all_goals exact hout

theorem pure (a : α) : b.Agrees env env' pre (Pure.pure a : Act U α) fun _ => pre :=
  fun _ _ hw hs => ⟨rfl, hw, hs⟩

/-- An answer from a settled place, or one of which nothing is promised. -/
theorem answer {a : α} (hC : C a → pre) : b.Agrees env env' pre (Pure.pure a : Act U α) C :=
  fun _ _ hw hs => ⟨rfl, hw, fun h => hs (hC h)⟩

theorem refused : b.Agrees env env' pre (Pure.pure none : Act U (Option α))
    fun o => o.isSome = true := .answer nofun

theorem bind_yields {x : Act U α} {f : α → Act U β} (hx : b.Agrees env env' pre x C)
    (hP : b.Yields env x P) (hf : ∀ a, P a → b.Agrees env env' (C a) (f a) E) :
    b.Agrees env env' pre (x >>= f) E :=
  (hx.unless.next_yields hP fun a ha => (hf a ha).unless).agrees

theorem bind {x : Act U α} {f : α → Act U β} (hx : b.Agrees env env' pre x C)
    (hf : ∀ a, b.Agrees env env' (C a) (f a) E) : b.Agrees env env' pre (x >>= f) E :=
  hx.bind_yields (P := fun _ => True) (fun _ _ _ _ _ => trivial) fun a _ => hf a

theorem bind_option {x : Act U (Option α)} {f : Option α → Act U β}
    (hx : b.Agrees env env' pre x fun o => o.isSome = true)
    (hnone : b.Agrees env env' False (f none) E)
    (hsome : ∀ a, b.Agrees env env' True (f (some a)) E) : b.Agrees env env' pre (x >>= f) E := by
  refine hx.bind fun o => ?_
  cases o with
  | none => exact hnone.under nofun
  | some a => exact (hsome a).under fun _ => rfl

theorem map {x : Act U α} (f : α → β) (hx : b.Agrees env env' pre x fun a => E (f a)) :
    b.Agrees env env' pre (f <$> x) E :=
  .bind hx fun _ => .answer id

theorem onFault {cleanup : Act U Unit} (hact : b.Agrees env env' pre act C)
    (hclean : b.Agrees env env' False cleanup fun _ => False) :
    b.Agrees env env' pre (act.onFault cleanup) C := (hact.unless.onFault hclean).agrees

theorem fault {c : Fault} (hc : ∀ e, c ≠ .raisedOverPending e) :
    b.Agrees env env' pre (Act.fault c : Act U α) C := fun _ _ hw _ => ⟨rfl, hw, .inr hc⟩

theorem reserve (count width : Nat) :
    b.Agrees env env' pre (Act.reserve count width : Act U Unit) fun _ => pre := by
  unfold Act.reserve
  split
  · exact pure ()
  · exact fault nofun

theorem ofOption (o : Option α) :
    b.Agrees env env' pre (Act.ofOption o : Act U α) fun _ => pre := by
  cases o with
  | none => exact fun _ _ _ _ => trivial
  | some a => exact pure a

theorem heap (f : Heap → α) : b.Agrees env env' pre (Act.heap f : Act U α) fun _ => pre :=
  fun _ _ hw hs => ⟨congrArg f hw.heap, hw, hs⟩

theorem payload {f : Option Payload → Act U β}
    (hf : ∀ o, (∀ p, o = some p → b.Fits p) → b.Agrees env env' pre (f o) E) :
    b.Agrees env env' pre (Act.heap (·.payload? h) >>= f) E := by
  refine (heap _).bind_yields (P := fun o => ∀ p, o = some p → b.Fits p) ?_ hf
  rintro w o w' hfits ⟨⟩
  exact hfits h

theorem updateHeap {f : Heap → α × Heap}
    (hf : ∀ heap, b.FitsHeap heap → b.FitsHeap (f heap).2) :
    b.Agrees env env' pre (Act.updateHeap f : Act U α) fun _ => pre := by
  rintro ⟨heap, pending, settings, client⟩ ⟨_, _, _, client'⟩
    ⟨rfl, rfl, hsettings, hclient, hfits⟩ hs
  exact ⟨rfl, ⟨rfl, rfl, hsettings, hclient, hf heap hfits⟩, hs⟩

theorem updateHeap? {f : Heap → Option (α × Heap)}
    (hf : ∀ heap a next, b.FitsHeap heap → f heap = some (a, next) → b.FitsHeap next) :
    b.Agrees env env' pre (Act.updateHeap? f : Act U (Option α)) fun _ => pre := by
  rintro ⟨heap, pending, settings, client⟩ ⟨_, _, _, client'⟩
    ⟨rfl, rfl, hsettings, hclient, hfits⟩ hs
  unfold Act.updateHeap?
  dsimp only
  cases hr : f heap with
  | none => exact ⟨rfl, ⟨rfl, rfl, hsettings, hclient, hfits⟩, hs⟩
  | some r => exact ⟨rfl, ⟨rfl, rfl, hsettings, hclient, hf heap r.1 r.2 hfits hr⟩, hs⟩

theorem setPayload (h : Handle) (hp : b.Fits p) :
    b.Agrees env env' pre (Act.setPayload h p : Act U Unit) fun _ => pre :=
  updateHeap fun _ hfits => hfits.setPayload hp h

theorem isSet : b.Agrees env env' pre (Indicator.isSet : Act U Bool) fun a => pre ∨ a = false := by
  intro w w' hw hs
  refine ⟨congrArg Option.isSome hw.pending, hw, ?_⟩
  rintro (hpre | hclear)
  · exact hs hpre
  · exact .inr (by simpa using hclear)

theorem holds (kind : ExceptionKind) :
    b.Agrees env env' pre (Indicator.holds kind : Act U Bool) fun _ => pre :=
  fun _ _ hw hs => ⟨congrArg (fun p => Option.any (·.kind == kind) p) hw.pending, hw, hs⟩

theorem take : b.Agrees env env' pre (Indicator.take : Act U (Option Raised)) fun _ => True :=
  fun _ _ hw _ => ⟨hw.pending, ⟨hw.heap, rfl, hw.settings, hw.client, hw.fits⟩, fun _ => .inr rfl⟩

end Agrees

/-- User code, as far as it can be reached, does the same on both sides. Peer functions are entered
with the indicator settled and may leave any error. -/
structure HooksAgree (b : Bond U) (hooks hooks' : Hooks U) : Prop where
  call : b.calls → ∀ code hs w w', b.Holds w w' → b.Settled w →
    b.Matches (fun _ => False) (hooks.call code hs w) (hooks'.call code hs w')
  slot : b.wild → ∀ code h w w', b.Holds w w' →
    b.Matches (fun _ => False) (hooks.slot code h w) (hooks'.slot code h w')
  measure : b.wild → ∀ code h w w', b.Holds w w' →
    b.Matches (fun _ => False) (hooks.measure code h w) (hooks'.measure code h w')
  destroy : b.wild → ∀ code hs w w', b.Holds w w' →
    b.Matches (fun _ => False) (hooks.destroy code hs w) (hooks'.destroy code hs w')
  toPeer : b.wild → ∀ code t v w w', b.Holds w w' →
    b.Matches (fun _ => False) (hooks.toPeer code t v w) (hooks'.toPeer code t v w')

/-- Environments for the two sides. Only a tolerant bond has to bear with overwritten errors. -/
structure Joins (b : Bond U) (env env' : Env U) : Prop where
  budget : env.budget = env'.budget
  observe : ∀ {e : Log.Event} {u u' : U}, (b.tolerant ∨ ∀ r, e ≠ .overwritten r) →
    b.client u u' → b.client (env.observe e u) (env'.observe e u')
  release : ∀ {pre : Prop} (h : Handle), b.Agrees env env' pre (Causeway.release h) fun _ => pre
  hooks : b.HooksAgree env.hooks env'.hooks

namespace AgreesUnless

variable {C : α → Prop} {E : β → Prop}

theorem bind {x : Act U α} {f : α → Act U β} (hx : b.Agrees env env' pre x C)
    (hf : ∀ a, b.AgreesUnless env env' short (C a) (f a) E) :
    b.AgreesUnless env env' short pre (x >>= f) E := hx.unless.next hf

theorem answer {a : α} (hC : C a → pre) :
    b.AgreesUnless env env' short pre (Pure.pure a : Act U α) C := (Agrees.answer hC).unless

theorem refused : b.AgreesUnless env env' short pre (Pure.pure none : Act U (Option α))
    fun o => o.isSome = true := .answer nofun

theorem bind_option {x : Act U (Option α)} {f : Option α → Act U β}
    (hx : b.AgreesUnless env env' short pre x fun o => o.isSome = true)
    (hnone : b.AgreesUnless env env' short False (f none) E)
    (hsome : ∀ a, b.AgreesUnless env env' short True (f (some a)) E) :
    b.AgreesUnless env env' short pre (x >>= f) E := by
  refine hx.next fun o => ?_
  cases o with
  | none => exact hnone.under nofun
  | some a => exact (hsome a).under fun _ => rfl

theorem loop {σ : Type} (hj : b.Joins env env') {body : σ → Act U (σ ⊕ α)} {I : σ → Prop}
    (hbody : ∀ s, b.AgreesUnless env env' short (I s) (body s) (Sum.elim I C)) (s : σ) :
    b.AgreesUnless env env' short (I s) (Act.loop body s) C := by
  have hrounds (n : Nat) :
      ∀ s, b.AgreesUnless env env' short (I s) (fun env w => loopFor body n s env w) C := by
    induction n with
    | zero => exact fun _ _ _ _ _ => .inl trivial
    | succ n ih =>
      intro s w w' hw hs
      dsimp only [loopFor]
      obtain hout | ⟨hshort, hover⟩ := hbody s w w' hw hs
      · cases ho : body s env w <;> cases ho' : body s env' w' <;> rw [ho, ho'] at hout
        case done.done a w₁ a' w₁' =>
          obtain ⟨rfl, hw₁, hs₁⟩ := hout
          cases a with
          | inl s' => exact ih s' w₁ w₁' hw₁ hs₁
          | inr a => exact .inl ⟨rfl, hw₁, hs₁⟩
        all_goals first | exact .inl hout | exact hout.elim
      · refine .inr ⟨hshort, ?_⟩
        generalize body s env w = o at hover
        cases hover with
        | fault w₁ => exact .fault w₁
        | unfinished => exact .unfinished
  intro w w' hw hs
  have hout := hrounds env.budget s w w' hw hs
  rw [hj.budget] at hout
  simpa only [Act.loop, hj.budget] using hout

end AgreesUnless

section

variable {C : α → Prop} (hj : b.Joins env env')

include hj

theorem emit_agrees {e : Log.Event} (he : ∀ r, e ≠ .overwritten r) :
    b.Agrees env env' pre (Act.emit e) fun _ => pre :=
  fun _ _ hw hs => ⟨rfl,
    ⟨hw.heap, hw.pending, hw.settings, hj.observe (.inr he) hw.client, hw.fits⟩, hs⟩

theorem traced_agrees {e : Log.Event} (he : ∀ r, e ≠ .overwritten r) :
    b.Agrees env env' pre (traced e) fun _ => pre := by
  intro w w' hw hs
  unfold traced
  simp only [bind_run, Act.settings, ← b.traces hw.settings]
  split
  · exact emit_agrees hj he w w' hw hs
  · exact Agrees.pure () w w' hw hs

/-- Whatever is raised is raised on both sides, unless an error is pending that only one of them may
overwrite. -/
theorem raise_agrees (kind : ExceptionKind) (message : String) (hpre : pre) :
    b.Agrees env env' pre (raise kind message) fun _ => False := by
  rintro ⟨heap, pending, settings, client⟩ ⟨_, _, settings', client'⟩
    ⟨rfl, rfl, hsettings, hclient, hfits⟩ hs
  have hclient₁ := hj.observe (e := .raised ⟨kind, message⟩) (.inr nofun) hclient
  cases pending with
  | none => exact ⟨rfl, ⟨rfl, rfl, hsettings, hclient₁, hfits⟩, False.elim⟩
  | some previous =>
    have htol : b.tolerant := (hs hpre).resolve_right nofun
    rw [raise_pending_run kind message env rfl, raise_pending_run kind message env' rfl,
      ← b.strictness htol hsettings]
    split
    · exact ⟨rfl, ⟨rfl, rfl, hsettings, hclient₁, hfits⟩, .inl htol⟩
    · exact ⟨rfl, ⟨rfl, rfl, hsettings, hj.observe (.inl htol) hclient₁, hfits⟩, False.elim⟩

theorem refuse_agrees (kind : ExceptionKind) (message : String) (hpre : pre) :
    b.Agrees env env' pre (do raise kind message; pure none : Act U (Option α))
      fun o => o.isSome = true :=
  .bind (raise_agrees hj kind message hpre) fun _ => .refused

theorem clear_agrees : b.Agrees env env' pre Indicator.clear fun _ => True := by
  refine .bind .take fun found => ?_
  cases found with
  | none => exact .pure ()
  | some e => exact emit_agrees hj nofun

theorem putBack_agrees (e : Option Raised) (hpre : pre) :
    b.Agrees env env' pre (Indicator.putBack e) fun _ => False := by
  cases e with
  | none => exact (Agrees.pure ()).anyhow
  | some e => exact raise_agrees hj e.kind e.message hpre

theorem reflect_agrees (f : Failure) : b.Agrees env env' pre f.reflect fun _ => False := by
  unfold Failure.reflect
  split
  · exact .bind (clear_agrees hj) fun _ => raise_agrees hj _ _ trivial
  · refine .bind .isSet fun set => ?_
    cases set with
    | true => exact (Agrees.pure ()).anyhow
    | false => exact raise_agrees hj _ _ (.inr rfl)

theorem releaseAll_agrees (hs : List Handle) :
    b.Agrees env env' pre (releaseAll hs) fun _ => pre := by
  induction hs generalizing pre with
  | nil => exact .pure ()
  | cons h hs ih => exact .bind (.onFault (hj.release h) ih) fun _ => ih

/-- For want of an answer the units that were kept are given back. -/
theorem forgo_agrees (units : List Handle) :
    b.Agrees env env' pre (do releaseAll units; pure none : Act U (Option α))
      fun o => o.isSome = true :=
  .bind (releaseAll_agrees hj units) fun _ => .refused

theorem holding_agrees {act : Act U α} (units : List Handle) (hact : b.Agrees env env' pre act C) :
    b.Agrees env env' pre (holding units act) C :=
  hact.onFault (releaseAll_agrees hj units)

theorem holding_agreesUnless {act : Act U α} (units : List Handle)
    (hact : b.AgreesUnless env env' short pre act C) :
    b.AgreesUnless env env' short pre (holding units act) C :=
  hact.onFault (releaseAll_agrees hj units)

theorem alloc_agrees (hp : b.Fits p) : b.Agrees env env' pre (alloc p) fun _ => pre :=
  .bind (.updateHeap fun _ hfits => hfits.insert hp) fun _ =>
    .bind (traced_agrees hj nofun) fun _ => .pure _

theorem acquire_agrees (h : Handle) : b.Agrees env env' pre (acquire h) fun _ => pre := by
  refine .bind (.updateHeap? fun _ _ _ hfits hi => hfits.increment? hi) fun count => ?_
  cases count with
  | none => exact .fault nofun
  | some n => exact .bind (traced_agrees hj nofun) fun _ => .pure h

theorem acquireBehind_agrees (made hs : List Handle) :
    b.Agrees env env' pre (acquireBehind made hs) fun _ => pre := by
  induction hs generalizing made with
  | nil => exact .pure made
  | cons h hs ih => exact .bind (holding_agrees hj made (acquire_agrees hj h)) fun _ => ih _

theorem disposeState_agrees {d : Descriptor} (hd : b.wild ∨ d.dealloc = .drop) (s : NativeState) :
    b.Agrees env env' pre (disposeState d s) fun _ => pre := by
  unfold disposeState
  cases hslot : d.dealloc with
  | drop => exact .bind (emit_agrees hj nofun) fun _ => releaseAll_agrees hj _
  | user code =>
    have hwild : b.wild := hd.resolve_right (by simp [hslot])
    exact .of_wild hwild (hj.hooks.destroy hwild code s.units)

omit hj in
/-- What holds of the descriptors of the library holds of every descriptor, unless there may be
others. -/
theorem Fits.descriptor {P : Descriptor → Prop} {d : Descriptor} {s : Option NativeState}
    (hp : b.Fits (.native d s)) (ha : P .adapter) (hc : P .collection) : b.wild ∨ P d := by
  refine hp.imp_right fun hplain => ?_
  obtain rfl | rfl := hplain.stock d s rfl
  · exact ha
  · exact hc

omit hj in
theorem Fits.drops {d : Descriptor} {s : Option NativeState} (hp : b.Fits (.native d s)) :
    b.wild ∨ d.dealloc = .drop := hp.descriptor (P := fun d => d.dealloc = .drop) rfl rfl

theorem dispose_agrees (hp : b.Fits p) : b.Agrees env env' pre (dispose p) fun _ => pre := by
  unfold dispose
  split
  · exact disposeState_agrees hj hp.drops _
  · exact releaseAll_agrees hj _

theorem releaseNow_agrees (h : Handle) : b.Agrees env env' pre (releaseNow h) fun _ => pre := by
  refine .bind_yields (P := fun r => ∀ p, r = some (.dead p) → b.Fits p)
    (.updateHeap? fun _ _ _ hfits hd => hfits.decrement? hd) ?_ fun released hreleased => ?_
  · rintro ⟨heap, pending, settings, client⟩ r w' hfits hrun p rfl
    unfold Act.updateHeap? at hrun
    cases hd : heap.decrement? h with
    | none => simp [hd] at hrun
    | some r =>
      obtain ⟨r, next⟩ := r
      simp only [hd, Outcome.done.injEq, Option.some.injEq] at hrun
      obtain ⟨rfl, -⟩ := hrun
      exact hfits h p (Heap.decrement?_dead_payload? hd).1
  · match released with
    | none => exact .fault nofun
    | some (.alive count) => exact traced_agrees hj nofun
    | some (.dead p) =>
      exact .bind (traced_agrees hj nofun) fun _ => dispose_agrees hj (hreleased p rfl)

end

theorem tie_joins {observe observe' : Log.Event → U → U} {user : Env U → Hooks U}
    (hobserve : ∀ {e : Log.Event} {u u' : U}, (b.tolerant ∨ ∀ r, e ≠ .overwritten r) →
      b.client u u' → b.client (observe e u) (observe' e u'))
    (huser : ∀ {env env' : Env U}, b.Joins env env' → b.HooksAgree (user env) (user env'))
    (n : Nat) :
    b.Joins (.tie observe user n) (.tie observe' user n) := by
  induction n with
  | zero =>
    exact ⟨rfl, hobserve, fun _ _ _ _ _ => trivial, fun _ _ _ _ _ _ _ => trivial,
      fun _ _ _ _ _ _ => trivial, fun _ _ _ _ _ _ => trivial, fun _ _ _ _ _ _ => trivial,
      fun _ _ _ _ _ _ _ => trivial⟩
  | succ n ih =>
    obtain ⟨call, slot, measure, destroy, toPeer⟩ := huser ih
    exact ⟨rfl, hobserve, releaseNow_agrees ih, call, slot, measure, destroy, toPeer⟩

section

variable {C : α → Prop} (hj : b.Joins env env')

theorem askPayload_agrees (h : Handle) (f : Payload → α) :
    b.Agrees env env' pre (askPayload h f) fun _ => pre := .heap _

theorem typeNameOf_agrees (h : Handle) : b.Agrees env env' pre (typeNameOf h) fun _ => pre :=
  .heap _

theorem Fits.builtin (hp : p.isNative = false) : b.Fits p := .inr (Payload.plain_of_not_native hp)

include hj

theorem made_agrees (hp : p.isNative = false) (hpre : pre) :
    b.Agrees env env' pre (some <$> alloc p) fun o => o.isSome = true :=
  .map _ ((alloc_agrees hj (.builtin hp)).weaken fun _ _ => hpre)

theorem shared_agrees (h : Handle) (hpre : pre) :
    b.Agrees env env' pre (some <$> acquire h) fun o => o.isSome = true :=
  .map _ ((acquire_agrees hj h).weaken fun _ _ => hpre)

theorem refuseType_agrees (h : Handle) (message : String → String) (hpre : pre) :
    b.Agrees env env' pre (do raiseType (message (← typeNameOf h)); pure none : Act U (Option α))
      fun o => o.isSome = true :=
  .bind (typeNameOf_agrees h) fun _ => refuse_agrees hj _ _ hpre

theorem uniqueItems_agrees (items : List Handle) (keys : List Key) (kept : List Handle)
    (hpre : pre) : b.Agrees env env' pre (uniqueItems items keys kept)
      fun o => o.isSome = true := by
  induction items generalizing keys kept with
  | nil => exact .answer fun _ => hpre
  | cons h hs ih =>
    refine .bind (.bind (.heap _) fun _ => .ofOption _) fun key => ?_
    cases key with
    | none =>
      refine .bind (holding_agrees hj _ (.bind (typeNameOf_agrees h) fun _ =>
        raise_agrees hj _ _ hpre)) fun _ => ?_
      exact forgo_agrees hj _
    | some k =>
      dsimp only
      split
      · exact .bind (holding_agrees hj _ (hj.release h)) fun _ => ih keys kept
      · exact ih _ _

theorem newSet_agrees (items : List Handle) (hpre : pre) :
    b.Agrees env env' pre (newSet items) fun o => o.isSome = true := by
  exact .bind_option (uniqueItems_agrees hj items [] [] hpre) .refused fun _ =>
    made_agrees hj rfl trivial

theorem convertFrom_agrees (units : α → List Handle) {convert : α → Act U (Option Handle)}
    (hconvert : ∀ x, b.Agrees env env' True (convert x) fun _ => False) (beyond : List Handle)
    (items : List α) (index : Nat) (converted : Array Handle) (hpre : pre) :
    b.Agrees env env' pre (convertFrom units convert beyond items index converted)
      fun r => ∃ hs, r = .ok hs := by
  induction items generalizing index converted pre with
  | nil =>
    exact .bind (holding_agrees hj _ (releaseAll_agrees hj _)) fun _ => .answer fun _ => hpre
  | cons x xs ih =>
    refine .bind (.onFault ((hconvert x).under fun _ => hpre) (releaseAll_agrees hj _)) fun out =>
      .bind .isSet fun set => ?_
    split
    · exact .bind (.onFault (releaseAll_agrees hj _) (releaseAll_agrees hj _)) fun _ =>
        ih _ _ (.inr rfl)
    · refine .bind (holding_agrees hj _ (releaseAll_agrees hj _)) fun _ =>
        .bind (clear_agrees hj) fun _ => .bind (emit_agrees hj nofun) fun _ =>
          .bind (releaseAll_agrees hj _) fun _ => .answer nofun

theorem convertAll_agrees {t : NativeType} (units : t.Value → List Handle)
    {convert : t.Value → Act U (Option Handle)}
    (hconvert : ∀ x, b.Agrees env env' True (convert x) fun _ => False) (source : Source t) :
    b.Agrees env env' pre (convertAll units convert source) fun r => ∃ hs, r = .ok hs := by
  refine .bind .isSet fun set => ?_
  cases set with
  | true => exact .bind (releaseAll_agrees hj _) fun _ => .answer nofun
  | false =>
    exact .bind (holding_agrees hj _ (.reserve _ _)) fun _ =>
      convertFrom_agrees hj units hconvert _ _ 0 #[] (.inr rfl)

theorem toPeer_agrees (t : NativeType) (v : t.Value) (hpre : pre) :
    b.Agrees env env' pre (toPeer t v) fun o => o.isSome = true := by
  induction t generalizing pre with
  | i64 | i32 | f64 | bool | text | unit => exact made_agrees hj rfl hpre
  | usize =>
    unfold toPeer
    split
    · exact made_agrees hj rfl hpre
    · exact refuse_agrees hj _ _ hpre
  | object | view | callable => exact shared_agrees hj _ hpre
  | option t ih =>
    cases v with
    | none => exact made_agrees hj rfl hpre
    | some v => exact ih v hpre
  | pair a b iha ihb =>
    refine .bind_option (iha v.1 hpre) .refused fun h =>
      .bind_option (holding_agrees hj _ (ihb v.2 trivial)) ?_ fun k => made_agrees hj rfl trivial
    exact .bind (hj.release h) fun _ => .refused
  | triple a b c iha ihb ihc =>
    refine .bind_option (iha v.1 hpre) .refused fun h =>
      .bind_option (holding_agrees hj _ (ihb v.2.1 trivial)) ?_ fun k =>
      .bind_option (holding_agrees hj _ (ihc v.2.2 trivial)) ?_ fun l => made_agrees hj rfl trivial
    · exact .bind (hj.release h) fun _ => .refused
    · exact forgo_agrees hj _
  | vec t ih =>
    refine .bind (convertAll_agrees hj _ (fun x => (ih x trivial).anyhow) (.listed v true))
      fun r => ?_
    cases r with
    | ok items => exact made_agrees hj rfl ⟨items, rfl⟩
    | error f => exact .bind (reflect_agrees hj f) fun _ => .refused

theorem convertOut_agrees {code : Option CodeId} (hcode : b.wild ∨ code = none) (t : NativeType)
    (v : t.Value) (hpre : pre) : b.Agrees env env' pre (convertOut code t v) fun _ => False := by
  cases code with
  | none => exact (toPeer_agrees hj t v hpre).anyhow
  | some code =>
    have hwild : b.wild := hcode.resolve_right nofun
    exact .of_wild hwild (hj.hooks.toPeer hwild code t v)

end

section

variable {C : α → Prop} (hj : b.Joins env env')

theorem Fits.native {d : Descriptor} {s : Option NativeState} {s' : NativeState}
    (hp : b.Fits (.native d s)) (hs : b.FitsState s') : b.Fits (.native d (some s')) := by
  obtain hwild | hplain := hp
  · exact .inl hwild
  · refine hs.imp_right fun hs => ⟨fun d' s'' h => ?_, fun d' s'' h => ?_⟩
    · cases h
      exact hplain.stock d s rfl
    · cases h
      exact hs

theorem Fits.away {d : Descriptor} {s : Option NativeState} (hp : b.Fits (.native d s)) :
    b.Fits (.native d none) := by
  refine hp.imp_right fun hplain => ⟨fun d' s' h => ?_, fun d' s' h => ?_⟩
  · cases h
    exact hplain.stock d s rfl
  · cases h

theorem Fits.state {d : Descriptor} {s : NativeState} (hp : b.Fits (.native d (some s))) :
    b.FitsState s := hp.imp_right fun hplain => hplain.state d s rfl

theorem putStateBack_agrees (obj : Handle) {s : NativeState} (hs : b.FitsState s) :
    b.Agrees env env' pre (putStateBack obj s) fun _ => pre := by
  refine .payload fun found hfound => ?_
  split
  · exact .bind (.setPayload _ ((hfound _ rfl).native hs)) fun _ => .pure true
  · exact .pure false

/-- What the work on a state that fits answers, the whole does if it answers anything. -/
theorem withState_yields (obj : Handle) (kind : StateKind) (units : α → List Handle)
    {f : kind.State → Act U (kind.State × α)} {P : α → Prop}
    (hf : ∀ typed, b.FitsState (.of kind typed) → (f typed).Answers fun r => P r.2) :
    b.Yields env (withState obj kind units f) fun o => ∀ a, o = some a → P a := by
  have hnone : (pure none : Act U (Option α)).Answers fun o => ∀ a, o = some a → P a :=
    .pure nofun
  refine .payload fun found hfound => ?_
  split
  · exact .bind fun _ => hnone
  · exact .bind fun _ => hnone
  · refine .bind fun _ => ?_
    split
    · rename_i typed htyped
      have hs := NativeState.of_get? htyped ▸ (hfound _ rfl).state
      refine .next (hf typed hs) fun r hr => ?_
      have hsome : (pure (some r.2) : Act U (Option α)).Answers fun o => ∀ a, o = some a → P a :=
        .pure fun a ha => Option.some.inj ha ▸ hr
      refine .bind fun back => ?_
      cases back with
      | true => exact hsome
      | false => exact .bind fun _ => hsome
    · refine .bind fun _ => .bind fun back => ?_
      cases back with
      | true => exact hnone
      | false => exact .bind fun _ => hnone
  · exact .bind fun _ => hnone

include hj

/-- An answer settles the indicator if the work on the state did; without one there is an error. -/
theorem withState_agrees (obj : Handle) (kind : StateKind) (units : α → List Handle)
    {f : kind.State → Act U (kind.State × α)} (hpre : pre)
    (hf : ∀ typed, b.FitsState (.of kind typed) →
      b.Agrees env env' True (f typed) fun r => C r.2)
    (hstate : ∀ typed, b.FitsState (.of kind typed) →
      (f typed).Answers fun r => b.FitsState (.of kind r.1)) :
    b.Agrees env env' pre (withState obj kind units f) fun o => ∃ a, o = some a ∧ C a := by
  refine .payload fun found hfound => ?_
  split
  · exact .bind (raise_agrees hj _ _ hpre) fun _ => .answer nofun
  · exact .bind (raise_agrees hj _ _ hpre) fun _ => .answer nofun
  · rename_i d s
    have hp := hfound _ rfl
    refine .bind (.setPayload _ hp.away) fun _ => ?_
    split
    · rename_i typed htyped
      have hs : b.FitsState (.of kind typed) := NativeState.of_get? htyped ▸ hp.state
      refine .bind_yields ((hf typed hs).under fun _ => hpre) (.of_answers (hstate typed hs))
        fun r hr => .bind (putStateBack_agrees _ hr) fun back => ?_
      cases back with
      | true => exact .answer fun ⟨_, ha, hC⟩ => Option.some.inj ha ▸ hC
      | false =>
        exact .bind (holding_agrees hj _ (disposeState_agrees hj hp.drops _)) fun _ =>
          .answer fun ⟨_, ha, hC⟩ => Option.some.inj ha ▸ hC
    · refine .bind (holding_agrees hj _ (raise_agrees hj _ _ hpre)) fun _ =>
        .bind (putStateBack_agrees _ hp.state) fun back => ?_
      cases back with
      | true => exact .answer nofun
      | false => exact .bind (disposeState_agrees hj hp.drops _) fun _ => .answer nofun
  · exact .bind (raise_agrees hj _ _ hpre) fun _ => .answer nofun

theorem step_agrees {a : Adapter} (ha : b.FitsState (.adapter a)) :
    b.Agrees env env' pre a.step fun r => r.2.isSome = true := by
  refine .bind .isSet fun set => ?_
  cases set with
  | true => exact .answer nofun
  | false =>
    rw [if_neg Bool.false_ne_true]
    split
    · exact .bind (holding_agrees hj _ (releaseAll_agrees hj _)) fun _ =>
        .bind (emit_agrees hj nofun) fun _ => .answer nofun
    · refine .bind (holding_agrees hj _ (convertOut_agrees hj ha _ _ (.inr rfl))) fun out =>
        .bind .isSet fun set => ?_
      split
      · exact .bind (holding_agrees hj _ (releaseAll_agrees hj _)) fun _ =>
          .answer fun _ => .inr rfl
      · exact .bind (holding_agrees hj _ (.bind (releaseAll_agrees hj _) fun _ =>
          .bind (clear_agrees hj) fun _ => .bind (emit_agrees hj nofun) fun _ =>
            raise_agrees hj _ _ trivial)) fun _ => .answer nofun

theorem newAdapter_agrees {t : NativeType} (source : Source t) {code : Option CodeId}
    (hcode : b.wild ∨ code = none) :
    b.Agrees env env' pre (newAdapter source code) fun _ => pre := by
  refine .bind_yields (P := fun d => d = .adapter)
    (.bind (emit_agrees hj nofun) fun _ => .pure Descriptor.adapter) (by rintro _ _ _ - ⟨⟩; rfl) ?_
  rintro _ rfl
  refine alloc_agrees hj (hcode.imp_right fun hnone => ⟨fun d s h => ?_, fun d s h => ?_⟩)
  · cases h
    exact .inl rfl
  · cases h
    exact hnone

theorem copyAll_agrees (units : α → List Handle) {copy : α → Act U Unit}
    (hcopy : ∀ v, b.Agrees env env' pre (copy v) fun _ => pre) (made : List Handle)
    (vs : List α) : b.Agrees env env' pre (copyAll units copy made vs) fun _ => pre := by
  induction vs generalizing made with
  | nil => exact .pure ()
  | cons v vs ih => exact .bind (holding_agrees hj _ (hcopy v)) fun _ => ih _

theorem copyValue_agrees (t : NativeType) (v : t.Value) :
    b.Agrees env env' pre (copyValue t v) fun _ => pre := by
  induction t with
  | i64 | i32 | usize | f64 | bool | text | unit => exact .pure ()
  | object | view | callable => exact .bind (acquire_agrees hj _) fun _ => .pure ()
  | option t ih =>
    cases v with
    | none => exact .pure ()
    | some v => exact ih v
  | pair a b iha ihb => exact .bind (iha v.1) fun _ => holding_agrees hj _ (ihb v.2)
  | triple a b c iha ihb ihc =>
    exact .bind (iha v.1) fun _ => .bind (holding_agrees hj _ (ihb v.2.1)) fun _ =>
      holding_agrees hj _ (ihc v.2.2)
  | vec t ih => exact copyAll_agrees hj t.units ih [] v

theorem copyCollection_agrees (c : Collection) :
    b.Agrees env env' pre (copyCollection c) fun _ => pre :=
  .bind (copyAll_agrees hj _ (copyValue_agrees hj c.elem) [] _) fun _ => .pure c

theorem runIterSlot_agrees {slot : IterSlot} (hslot : b.wild ∨ ∀ code, slot ≠ .user code)
    (obj : Handle) (hpre : pre) :
    b.Agrees env env' pre (runIterSlot slot obj) fun o => o.isSome = true := by
  cases slot with
  | self => exact shared_agrees hj obj hpre
  | fresh =>
    have hcopy (c : Collection) (hc : b.FitsState (.collection c)) :
        (do let copy ← holding c.units (copyCollection c); pure (c, copy) :
          Act U (Collection × Collection)).Answers
            fun r => b.FitsState (.collection r.1) ∧ b.FitsState (.collection r.2) := by
      rintro env w r w' hrun
      obtain ⟨copy, w₁, hheld, hpure⟩ := bind_eq_done.1 hrun
      obtain ⟨_, _, _, hcopied⟩ := bind_eq_done.1 (holding_eq_done hheld)
      cases hcopied
      cases hpure
      exact ⟨hc, hc⟩
    refine .bind_yields (P := fun o => ∀ c, o = some c → b.FitsState (.collection c))
      (withState_agrees hj obj .collection Collection.units (C := fun _ => True) hpre
        (fun (c : Collection) _ => ?_) fun (c : Collection) hc env w r w' hr => ?_)
      (withState_yields obj .collection _ fun c hc env w r w' hr => ?_) fun copied hcopied => ?_
    · exact .bind (holding_agrees hj _ (copyCollection_agrees hj c)) fun _ => .pure _
    · exact (hcopy c hc env w r w' hr).1
    · exact (hcopy c hc env w r w' hr).2
    · cases copied with
      | none => exact .refused
      | some c =>
        exact .map _ ((newAdapter_agrees hj c.source (hcopied c rfl)).weaken
          fun _ _ => ⟨c, rfl, trivial⟩)
  | user code =>
    have hwild : b.wild := hslot.resolve_right fun h => h code rfl
    exact .of_wild hwild (hj.hooks.slot hwild code obj)

theorem runNextSlot_agrees {slot : NextSlot} (hslot : b.wild ∨ ∀ code, slot ≠ .user code)
    (obj : Handle) (hpre : pre) :
    b.Agrees env env' pre (runNextSlot slot obj) fun o => o.isSome = true := by
  cases slot with
  | step =>
    refine .bind (withState_agrees hj obj .adapter Option.toList (C := fun o => o.isSome = true)
      hpre (fun (a : Adapter) ha => step_agrees hj ha) fun (a : Adapter) ha =>
        fun env w r w' hr => ?_) fun found => .answer fun h => ?_
    · exact ha.imp_right fun hnone => (Adapter.step_convert a env w r w' hr).trans hnone
    · match found with
      | some o => exact ⟨o, rfl, h⟩
  | user code =>
    have hwild : b.wild := hslot.resolve_right fun h => h code rfl
    exact .of_wild hwild (hj.hooks.slot hwild code obj)

theorem runHintSlot_agrees {slot : HintSlot} (hslot : b.wild ∨ ∀ code, slot ≠ .user code)
    (obj : Handle) (hpre : pre) :
    b.Agrees env env' pre (runHintSlot slot obj) fun _ => False := by
  cases slot with
  | remaining =>
    refine (withState_agrees hj obj .adapter (fun _ => []) (C := fun _ => True) hpre
      (fun (a : Adapter) _ => .pure _) fun (a : Adapter) ha => .pure ha).anyhow
  | user code =>
    have hwild : b.wild := hslot.resolve_right fun h => h code rfl
    exact .of_wild hwild (hj.hooks.measure hwild code obj)

end

end Bond

end Causeway
