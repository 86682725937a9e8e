import Causeway.Proofs.ReferenceConservation
/-!
# Outcomes that settle

A piece of the library settles if it answers, with what is said about the answer, unless user code
went astray on the way. What astray means is left open: nothing is wrong with a fault that user code
is to blame for, and with nothing allowed to go astray, settling is coming back.

Giving units back comes back by itself. The cascade vacates a slot at every level, so twice as many
levels as there are live objects are enough for it, dealloc slots included.
-/
set_option autoImplicit false

namespace Causeway

open Act

variable {U α β : Type}

/-- An outcome with an answer that has the property; without one, user code went astray. -/
def Outcome.Settles (astray : Prop) (P : α → World U → Prop) : Outcome U α → Prop
  | .done a w => P a w
  | .fault _ _ | .unfinished => astray

namespace Outcome.Settles

variable {astray : Prop} {P : α → World U → Prop} {Q : β → World U → Prop} {env : Env U}
  {w : World U} {O : Ownership U} {H : Multiset Handle} {K : α → Multiset Handle}

theorem bind {x : Act U α} {f : α → Act U β} (hx : (x env w).Settles astray P)
    (hf : ∀ a w', x env w = .done a w' → P a w' → (f a env w').Settles astray Q) :
    ((x >>= f) env w).Settles astray Q := by
  rw [bind_run]
  cases hr : x env w with
  | done a w' =>
    rw [hr] at hx
    exact hf a w' hr hx
  | fault c w' =>
    rw [hr] at hx
    exact hx
  | unfinished =>
    rw [hr] at hx
    exact hx

theorem mono {out : Outcome U α} {P' : α → World U → Prop} (hout : out.Settles astray P)
    (h : ∀ a w', out = .done a w' → P a w' → P' a w') : out.Settles astray P' := by
  cases out with
  | done a w' => exact h a w' rfl hout
  | fault c w' => exact hout
  | unfinished => exact hout

theorem conserved {out : Outcome U α} (hout : out.Settles astray P)
    (hc : out.Conserved O .strict H w K) :
    out.Settles astray fun a w' => P a w' ∧ Path O .strict (H, w) (K a, w') := by
  cases out with
  | done a w' => exact ⟨hout, hc.1⟩
  | fault c w' => exact hout
  | unfinished => exact hout

theorem also {out : Outcome U α} {P' : α → World U → Prop} (hout : out.Settles astray P)
    (h : out.Settles True P') : out.Settles astray fun a w => P a w ∧ P' a w := by
  cases out with
  | done a w' => exact ⟨hout, h⟩
  | fault c w' => exact hout
  | unfinished => exact hout

theorem any (out : Outcome U α) : out.Settles True fun _ _ => True := by
  cases out <;> trivial

/-- What settles with nothing allowed to go astray has an answer. -/
theorem exists_done {out : Outcome U α} (h : out.Settles False P) :
    ∃ a w', out = .done a w' ∧ P a w' := by
  cases out with
  | done a w' => exact ⟨a, w', rfl, h⟩
  | fault c w' => exact h.elim
  | unfinished => exact h.elim

/-- If nothing goes astray where `R` holds, then only what denies `R` goes astray. -/
theorem otherwise {out : Outcome U α} {R : Prop} (h : R → out.Settles False P)
    (hP : ∀ a w', out = .done a w' → P a w') : out.Settles (¬ R) P := by
  cases out with
  | done a w' => exact hP a w' rfl
  | fault c w' => exact h
  | unfinished => exact h

end Outcome.Settles

section

variable {astray : Prop} {P : α → World U → Prop} {act : Act U α} {env : Env U} {w : World U}

theorem holding_settles (units : List Handle) (hact : (act env w).Settles astray P) :
    (holding units act env w).Settles astray fun a w' => act env w = .done a w' ∧ P a w' := by
  unfold holding Act.onFault
  cases hr : act env w with
  | done a w' =>
    rw [hr] at hact
    exact ⟨rfl, hact⟩
  | fault c w' =>
    rw [hr] at hact
    dsimp only
    cases releaseAll units env w' <;> exact hact
  | unfinished =>
    rw [hr] at hact
    exact hact

/-- What holds units has an answer of its own if it has one. -/
theorem holding_eq_done {units : List Handle} {a : α} {w' : World U}
    (h : holding units act env w = .done a w') : act env w = .done a w' := by
  unfold holding Act.onFault at h
  cases hr : act env w with
  | done b w₁ =>
    rw [hr] at h
    exact h
  | fault c w₁ =>
    rw [hr] at h
    dsimp only at h
    cases hclean : releaseAll units env w₁ <;> rw [hclean] at h <;> cases h
  | unfinished =>
    rw [hr] at h
    cases h

theorem releaseAll_rule {I : List Handle → World U → Prop}
    (step : ∀ h hs w, I (h :: hs) w → (env.release h w).Settles astray fun _ w' => I hs w')
    (hs : List Handle) (h : I hs w) : (releaseAll hs env w).Settles astray fun _ w' => I [] w' := by
  induction hs generalizing w with
  | nil => exact h
  | cons k ks ih =>
    have hfirst : (((release k).onFault (releaseAll ks)) env w).Settles astray _ :=
      holding_settles ks (step k ks w h)
    exact hfirst.bind fun _ w' _ h => ih h.2

end

def Env.Calm (env : Env U) : Prop :=
  ∀ h w, (env.release h w).Settles True fun _ w' => w'.pending = w.pending

/-- User code that is entered with the indicator clear, to borrow live objects. -/
def Act.Settles (O : Ownership U) (astray : Prop) (env : Env U) (borrowed : List Handle)
    (act : Act U α) : Prop :=
  ∀ w, Ready O .strict 0 w → w.pending = none → (∀ h ∈ borrowed, w.heap.isAlive h = true) →
    (act env w).Settles astray fun _ _ => True

structure Act.Tame (O : Ownership U) (astray : Prop) (env : Env U) (borrowed : List Handle)
    (K : α → Multiset Handle) (act : Act U α) : Prop where
  conserves : Conserves O .strict 0 act K
  settles : act.Settles O astray env borrowed

/-- User code as whoever gives objects back meets it. -/
structure Env.Sheds (O : Ownership U) (astray : Prop) (env : Env U) : Prop where
  lawful : env.Lawful O
  calm : env.Calm
  release : ∀ h w, Ready O .strict {h} w → (env.release h w).Settles astray fun _ _ => True

structure Env.Tame (O : Ownership U) (astray : Prop) (env : Env U) : Prop where
  lawful : env.Lawful O
  calm : env.Calm
  release : ∀ h w, Ready O .strict {h} w → (env.release h w).Settles astray fun _ _ => True
  call : ∀ code hs, Act.Settles O astray env hs fun env w => env.hooks.call code hs w

variable {O : Ownership U} {astray : Prop} {env : Env U} {w : World U} {E : Multiset Handle}
  {h : Handle}

theorem Act.Tame.run {act : Act U α} {K : α → Multiset Handle} {borrowed : List Handle}
    (hact : act.Tame O astray env borrowed K) (henv : env.Lawful O) (hx : Exact O E w)
    (clear : w.pending = none) (alive : ∀ h ∈ borrowed, w.heap.isAlive h = true) :
    (act env w).Settles astray fun a w' => Path O .strict (0, w) (K a, w') :=
  ((hact.settles w hx.idle clear alive).conserved (hact.conserves env henv w hx.idle)).mono
    fun _ _ _ h => h.2

theorem Env.Tame.call_tame (ht : env.Tame O astray) (code : CodeId) (hs : List Handle) :
    Act.Tame O astray env hs (fun o => ↑o.toList) fun env w => env.hooks.call code hs w where
  conserves := fun _ henv w hw => henv.hooks.call .strict code hs w hw
  settles := ht.call code hs

theorem Env.Sheds.release_settles (hs : env.Sheds O astray) (ready : Ready O .strict {h} w) :
    (Causeway.release h env w).Settles astray fun _ w' =>
      w'.pending = w.pending ∧ Path O .strict ({h}, w) (0, w') :=
  (((hs.release h w ready).also (hs.calm h w)).mono fun _ _ _ h => h.2).conserved
    (hs.lawful.release .strict h w ready)

theorem Env.Sheds.releaseAll_settles (hs : env.Sheds O astray) (units : List Handle)
    (ready : Ready O .strict ↑units w) :
    (releaseAll units env w).Settles astray fun _ w' =>
      w'.pending = w.pending ∧ Path O .strict (↑units, w) (0, w') := by
  refine releaseAll_rule (I := fun ks w' =>
    w'.pending = w.pending ∧ Path O .strict (↑units, w) (↑ks, w')) ?_ units ⟨rfl, .refl⟩
  intro k ks w₁ h
  obtain ⟨hpending, hpath⟩ := h
  have ready₁ := ready.path hpath
  rw [coe_cons] at ready₁
  refine (hs.release_settles (ready₁.of_frame _)).mono fun _ w₂ _ h => ?_
  have hrest := h.2.frame ↑ks
  rw [zero_add, ← coe_cons] at hrest
  exact ⟨h.1.trans hpending, hpath.trans hrest⟩

theorem Env.Tame.sheds (ht : env.Tame O astray) : env.Sheds O astray :=
  ⟨ht.lawful, ht.calm, ht.release⟩

theorem Env.Tame.release_settles (ht : env.Tame O astray) (ready : Ready O .strict {h} w) :
    (Causeway.release h env w).Settles astray fun _ w' =>
      w'.pending = w.pending ∧ Path O .strict ({h}, w) (0, w') :=
  ht.sheds.release_settles ready

theorem Env.Tame.releaseAll_settles (ht : env.Tame O astray) (hs : List Handle)
    (ready : Ready O .strict ↑hs w) :
    (releaseAll hs env w).Settles astray fun _ w' =>
      w'.pending = w.pending ∧ Path O .strict (↑hs, w) (0, w') :=
  ht.sheds.releaseAll_settles hs ready

/-- Where everything may go astray, the discipline is all that is asked for. -/
theorem Env.tame_of_calm (henv : env.Lawful O) (hcalm : env.Calm) : env.Tame O True where
  lawful := henv
  calm := hcalm
  release := fun _ _ _ => .any _
  call := fun _ _ _ _ _ _ => .any _

/-- The client took note of events, and nothing else happened. -/
inductive Noted (env : Env U) (w : World U) : World U → Prop where
  | nothing : Noted env w w
  | event {w' : World U} (h : Noted env w w') (e : Log.Event) :
      Noted env w { w' with client := env.observe e w'.client }

theorem Noted.trans {w₁ w₂ : World U} (hn : Noted env w w₁) (hn' : Noted env w₁ w₂) :
    Noted env w w₂ := by
  induction hn' with
  | nothing => exact hn
  | event _ e ih => exact ih.event e

theorem Noted.kept {w' : World U} (hn : Noted env w w') :
    w'.pending = w.pending ∧ w'.heap = w.heap := by
  induction hn with
  | nothing => exact ⟨rfl, rfl⟩
  | event _ _ ih => exact ih

theorem Noted.path {w' : World U} (hn : Noted env w w') (henv : env.Lawful O) :
    Path O .strict (0, w) (0, w') := by
  induction hn with
  | nothing => exact .refl
  | @event w₁ _ e ih =>
    refine ih.tail (.outside rfl (fun _ => ?_) fun _ hs => henv.observe_sound e w₁.client hs)
    rw [henv.observe_units]

theorem traced_run (e : Log.Event) (env : Env U) (w : World U) :
    ∃ w', traced e env w = .done () w' ∧ Noted env w w' := by
  unfold traced
  rw [bind_run]
  simp only [Act.settings]
  split
  · exact ⟨_, rfl, .event .nothing e⟩
  · exact ⟨w, rfl, .nothing⟩

theorem clear_run (env : Env U) (w : World U) :
    ∃ w', Indicator.clear env w = .done () w' ∧ w'.pending = none ∧ w'.heap = w.heap := by
  unfold Indicator.clear
  simp only [bind_run, Indicator.take, Indicator.swap]
  cases w.pending <;> exact ⟨_, rfl, rfl, rfl⟩

/-- Over a clear indicator there is only the error to note. -/
theorem raise_clear_run (kind : ExceptionKind) (message : String) (env : Env U)
    (clear : w.pending = none) :
    raise kind message env w = .done () { w with
      pending := some ⟨kind, message⟩
      client := env.observe (.raised ⟨kind, message⟩) w.client } := by
  unfold raise Indicator.raise Indicator.swap
  simp only [bind_run, Act.emit, clear]
  rfl

/-- The new error is noted and pending before the one that it overwrites is looked at. -/
theorem raise_pending_run (kind : ExceptionKind) (message : String) (env : Env U)
    {previous : Raised} (pending : w.pending = some previous) :
    raise kind message env w =
      (if w.settings.strictIndicator then Act.fault (.raisedOverPending previous)
        else Act.emit (.overwritten previous) : Act U Unit) env { w with
          pending := some ⟨kind, message⟩
          client := env.observe (.raised ⟨kind, message⟩) w.client } := by
  unfold raise Indicator.raise Indicator.swap
  simp only [bind_run, Act.emit, pending]
  rfl

/-- Only raising over a pending error is a fault, and only under strict settings. -/
theorem raise_over_run (kind : ExceptionKind) (message : String) (env : Env U)
    (free : w.pending = none ∨ w.settings.strictIndicator = false) :
    ∃ w', raise kind message env w = .done () w' ∧ w'.pending = some ⟨kind, message⟩ ∧
      w'.heap = w.heap := by
  cases hpending : w.pending with
  | none => exact ⟨_, raise_clear_run kind message env hpending, rfl, rfl⟩
  | some previous =>
    have hstrict : w.settings.strictIndicator = false := by simpa [hpending] using free
    rw [raise_pending_run kind message env hpending, hstrict]
    exact ⟨_, rfl, rfl, rfl⟩

/-- With the indicator clear raising is no fault, whatever the settings. -/
theorem raise_run (kind : ExceptionKind) (message : String) (env : Env U)
    (clear : w.pending = none) :
    ∃ w', raise kind message env w = .done () w' ∧ w'.pending = some ⟨kind, message⟩ ∧
      w'.heap = w.heap :=
  raise_over_run kind message env (.inl clear)

/-- Putting back over a clear indicator is no fault either. -/
theorem putBack_run (e : Option Raised) (env : Env U) (clear : w.pending = none) :
    ∃ w', Indicator.putBack e env w = .done () w' ∧ w'.pending = e ∧ w'.heap = w.heap := by
  cases e with
  | none => exact ⟨w, rfl, clear, rfl⟩
  | some e => exact raise_run e.kind e.message env clear

/-- A failure that describes itself takes the place of whatever was pending. -/
theorem reflect_run {f : Failure} {kind : ExceptionKind} (hkind : f.kind.exception? = some kind)
    (env : Env U) (w : World U) :
    ∃ w', f.reflect env w = .done () w' ∧ w'.pending = some ⟨kind, f.message⟩ ∧
      w'.heap = w.heap := by
  obtain ⟨w₁, hclear, hnone, hheap⟩ := clear_run env w
  obtain ⟨w₂, hraise, hpending, hheap₂⟩ := raise_run kind f.message env hnone
  refine ⟨w₂, ?_, hpending, hheap₂.trans hheap⟩
  simp only [Failure.reflect, hkind, bind_run, hclear, hraise]

theorem acquire_next (env : Env U) (hh : w.heap.isAlive h = true) :
    ∃ n w', w.heap.increment? h = some (n, w'.heap) ∧ acquire h env w = .done h w' ∧
      w'.pending = w.pending := by
  obtain ⟨e, he⟩ := (Heap.isAlive_iff _ _).1 hh
  cases hi : w.heap.increment? h with
  | none => simp [Heap.increment?, he] at hi
  | some r =>
    obtain ⟨n, heap⟩ := r
    obtain ⟨w', hrun, hnoted⟩ := traced_run (.acquired h n) env { w with heap }
    refine ⟨n, w', by rw [hnoted.kept.2], ?_, hnoted.kept.1⟩
    simp [acquire, bind_run, updateHeap?, hi, hrun, pure_run]

theorem acquire_run (env : Env U) (hh : w.heap.isAlive h = true) :
    ∃ w', acquire h env w = .done h w' ∧ w'.pending = w.pending ∧
      ∀ k, w'.heap.payload? k = w.heap.payload? k := by
  obtain ⟨n, w', hi, hrun, hpending⟩ := acquire_next env hh
  exact ⟨w', hrun, hpending, Heap.increment?_payload? hi⟩

theorem alloc_run (p : Payload) (env : Env U) (w : World U) :
    ∃ w', alloc p env w = .done (w.heap.insert p).1 w' ∧ w'.pending = w.pending ∧
      w'.heap = (w.heap.insert p).2 := by
  unfold alloc
  simp only [bind_run, Act.updateHeap]
  obtain ⟨w', hrun, hnoted⟩ := traced_run (.allocated (w.heap.insert p).1 p.typeName) env
    { w with heap := (w.heap.insert p).2 }
  rw [hrun]
  exact ⟨w', rfl, hnoted.kept⟩

theorem dispose_cases (p : Payload) (env : Env U) (w : World U) :
    (∃ w', Noted env w w' ∧ dispose p env w = releaseAll p.units env w') ∨
    ∃ code, dispose p env w = env.hooks.destroy code p.units w := by
  unfold dispose
  split
  · rename_i d s
    unfold disposeState
    cases d.dealloc with
    | drop => exact .inl ⟨_, .event .nothing (.stateDropped s.kind.path), rfl⟩
    | user code => exact .inr ⟨code, rfl⟩
  · exact .inl ⟨w, .nothing, rfl⟩

theorem releaseNow_cases (h : Handle) (env : Env U) (w : World U) :
    (w.heap.decrement? h = none ∧ releaseNow h env w = .fault (.doubleRelease h) w) ∨
    (∃ n heap w', w.heap.decrement? h = some (.alive n, heap) ∧ Noted env { w with heap } w' ∧
      releaseNow h env w = .done () w') ∨
    ∃ p heap w', w.heap.decrement? h = some (.dead p, heap) ∧ Noted env { w with heap } w' ∧
      (releaseNow h env w = releaseAll p.units env w' ∨
        ∃ code, releaseNow h env w = env.hooks.destroy code p.units w') := by
  cases hd : w.heap.decrement? h with
  | none => exact .inl ⟨rfl, by simp [releaseNow, bind_run, updateHeap?, hd, Act.fault]⟩
  | some r =>
    obtain ⟨r, heap⟩ := r
    cases r with
    | alive n =>
      obtain ⟨w', hrun, hnoted⟩ := traced_run (.released h n) env { w with heap }
      have hr : releaseNow h env w = traced (.released h n) env { w with heap } := by
        simp [releaseNow, bind_run, updateHeap?, hd]
      exact .inr (.inl ⟨n, heap, w', rfl, hnoted, hr.trans hrun⟩)
    | dead p =>
      obtain ⟨w₁, hrun, hnoted⟩ := traced_run (.deallocated h p.typeName) env { w with heap }
      have hr : releaseNow h env w = dispose p env w₁ := by
        simp [releaseNow, bind_run, updateHeap?, hd, hrun]
      obtain ⟨w₂, hnoted₂, hdispose⟩ | ⟨code, hdispose⟩ := dispose_cases p env w₁
      · exact .inr (.inr ⟨p, heap, w₂, rfl, hnoted.trans hnoted₂, .inl (hr.trans hdispose)⟩)
      · exact .inr (.inr ⟨p, heap, w₁, rfl, hnoted, .inr ⟨code, hr.trans hdispose⟩⟩)

theorem releaseAll_calm (hc : env.Calm) (hs : List Handle) :
    (releaseAll hs env w).Settles True fun _ w' => w'.pending = w.pending :=
  releaseAll_rule (I := fun _ w' => w'.pending = w.pending)
    (fun k _ w₁ h => (hc k w₁).mono fun _ _ _ h' => h'.trans h) hs rfl

/-- With dealloc slots that leave the indicator alone, giving units back does. -/
theorem tie_calm {observe : Log.Event → U → U} {user : Env U → Hooks U}
    (huser : ∀ env, env.Calm → ∀ code hs w,
      ((user env).destroy code hs w).Settles True fun _ w' => w'.pending = w.pending) (n : Nat) :
    (Env.tie observe user n).Calm := by
  suffices hboth : (Env.tie observe user n).Calm ∧ ∀ code hs w,
      ((Env.tie observe user n).hooks.destroy code hs w).Settles True
        fun _ w' => w'.pending = w.pending from hboth.1
  induction n with
  | zero => exact ⟨fun _ _ => trivial, fun _ _ _ => trivial⟩
  | succ n ih =>
    refine ⟨fun h w => ?_, huser _ ih.1⟩
    change (releaseNow h (Env.tie observe user n) w).Settles True fun _ w' => w'.pending = w.pending
    obtain ⟨_, hrun⟩ | ⟨_, _, w', _, hnoted, hrun⟩ | ⟨p, _, w', _, hnoted, hrun | ⟨code, hrun⟩⟩ :=
      releaseNow_cases h (Env.tie observe user n) w
    · rw [hrun]
      trivial
    · rw [hrun]
      exact hnoted.kept.1
    · rw [hrun, ← hnoted.kept.1]
      exact releaseAll_calm ih.1 p.units
    · rw [hrun, ← hnoted.kept.1]
      exact ih.2 code p.units w'

/-- Releases come back, and leave no more objects than there were, while there are at most `n`. -/
def Env.Frees (O : Ownership U) (env : Env U) (n : Nat) : Prop :=
  ∀ h w, Ready O .strict {h} w → w.heap.stats.live ≤ n →
    (env.release h w).Settles False fun _ w' => w'.heap.stats.live ≤ w.heap.stats.live

theorem releaseAll_frees {n : Nat} (henv : env.Lawful O) (hf : env.Frees O n) (hs : List Handle)
    (ready : Ready O .strict ↑hs w) (hlive : w.heap.stats.live ≤ n) :
    (releaseAll hs env w).Settles False fun _ w' => w'.heap.stats.live ≤ w.heap.stats.live := by
  suffices hrule : (releaseAll hs env w).Settles False fun _ w' =>
      Ready O .strict ↑([] : List Handle) w' ∧ w'.heap.stats.live ≤ w.heap.stats.live from
    hrule.mono fun _ _ _ h => h.2
  refine releaseAll_rule (I := fun ks w' =>
    Ready O .strict ↑ks w' ∧ w'.heap.stats.live ≤ w.heap.stats.live) ?_ hs ⟨ready, le_rfl⟩
  intro k ks w₁ h
  obtain ⟨ready₁, hle⟩ := h
  rw [coe_cons] at ready₁
  have hk := ready₁.of_frame _
  have hout := (hf k w₁ hk (hle.trans hlive)).conserved (henv.release .strict k w₁ hk)
  refine hout.mono fun _ w₂ _ h => ⟨?_, h.1.trans hle⟩
  have ready₂ := ready₁.path (h.2.frame ↑ks)
  rwa [zero_add] at ready₂

/-- Twice as many levels as there are objects, and one more, are enough: each level but those of
dealloc slots takes an object away. -/
theorem tie_frees {observe : Log.Event → U → U} {user : Env U → Hooks U}
    (henv : ∀ n, (Env.tie observe user n).Lawful O)
    (huser : ∀ env n, env.Lawful O → env.Frees O n → ∀ code (hs : List Handle) w,
      Ready O .strict ↑hs w → w.heap.stats.live ≤ n → ((user env).destroy code hs w).Settles False
        fun _ w' => w'.heap.stats.live ≤ w.heap.stats.live)
    {n m : Nat} (hm : 2 * n < m) : (Env.tie observe user m).Frees O n := by
  induction n generalizing m with
  | zero =>
    intro h w ready hlive
    obtain ⟨F, hF⟩ := ready rfl
    have hpos := Heap.live_pos hF.inOrder (hF.isAlive (h := h) (by simp))
    omega
  | succ n ih =>
    intro h w ready hlive
    -- one level for the release, and one for a dealloc slot in it
    obtain ⟨k, rfl⟩ : ∃ k, m = k + 2 := ⟨m - 2, by omega⟩
    obtain ⟨F, hF⟩ := ready rfl
    change (releaseNow h (Env.tie observe user (k + 1)) w).Settles False _
    obtain ⟨hd, _⟩ | ⟨_, heap, w', hd, hnoted, hrun⟩ | ⟨p, heap, w', hd, hnoted, hrun⟩ :=
      releaseNow_cases h (Env.tie observe user (k + 1)) w
    · obtain ⟨e, he⟩ := (Heap.isAlive_iff _ _).1 (hF.isAlive (h := h) (by simp))
      simp [Heap.decrement?, he] at hd
    · rw [hrun]
      change w'.heap.stats.live ≤ w.heap.stats.live
      rw [hnoted.kept.2]
      exact (Heap.decrement?_live hF.inOrder hd).le
    · have hless := Heap.decrement?_live hF.inOrder hd
      have hlive' : w'.heap.stats.live + 1 = w.heap.stats.live := by rw [hnoted.kept.2, hless]
      have m : Move O .strict ({h} + F, w) (↑p.units + F, { w with heap }) := .decrement hd
      have hx' := (hnoted.path (henv _)).exact_aside (m.exact hF)
      have ready' : Ready O .strict ↑p.units w' := hx'.ready.of_frame F
      have hout : (releaseNow h (Env.tie observe user (k + 1)) w).Settles False
          fun _ w₂ => w₂.heap.stats.live ≤ w'.heap.stats.live := by
        obtain hrun | ⟨code, hrun⟩ := hrun
        · rw [hrun]
          exact releaseAll_frees (henv (k + 1)) (ih (by omega)) p.units ready' (by omega)
        · rw [hrun]
          exact huser _ n (henv k) (ih (by omega)) code p.units w' ready' (by omega)
      exact hout.mono fun _ w₂ _ h => by omega

namespace Env

def ample (observe : Log.Event → U → U) (user : Env U → Hooks U) (budget : Nat) : Env U where
  budget
  release := fun h w => (tie observe user (2 * w.heap.stats.live + 1)).release h w
  observe
  hooks :=
    { call := fun c hs w => (user (tie observe user (2 * w.heap.stats.live + 1))).call c hs w
      slot := fun c h w => (user (tie observe user (2 * w.heap.stats.live + 1))).slot c h w
      measure := fun c h w => (user (tie observe user (2 * w.heap.stats.live + 1))).measure c h w
      destroy := fun c hs w => (user (tie observe user (2 * w.heap.stats.live + 1))).destroy c hs w
      toPeer := fun c t v w =>
        (user (tie observe user (2 * w.heap.stats.live + 1))).toPeer c t v w }

variable {observe : Log.Event → U → U} {user : Env U → Hooks U} {budget : Nat}

theorem ample_lawful (henv : ∀ n, (tie observe user n).Lawful O)
    (huser : ∀ env, env.Lawful O → (user env).Lawful O) : (ample observe user budget).Lawful O where
  release := fun d h w => (henv (2 * w.heap.stats.live + 1)).release d h w
  observe_units := (henv 0).observe_units
  observe_scope := (henv 0).observe_scope
  observe_sound := (henv 0).observe_sound
  hooks :=
    { call := fun d c hs w => (huser _ (henv _)).call d c hs w
      slot := fun d c h w => (huser _ (henv _)).slot d c h w
      measure := fun d c h w => (huser _ (henv _)).measure d c h w
      destroy := fun d c hs w => (huser _ (henv _)).destroy d c hs w
      toPeer := fun d c t v w => (huser _ (henv _)).toPeer d c t v w }

theorem ample_calm (hcalm : ∀ n, (tie observe user n).Calm) : (ample observe user budget).Calm :=
  fun h w => hcalm (2 * w.heap.stats.live + 1) h w

theorem ample_frees (henv : ∀ n, (tie observe user n).Lawful O)
    (huser : ∀ env n, env.Lawful O → env.Frees O n → ∀ code (hs : List Handle) w,
      Ready O .strict ↑hs w → w.heap.stats.live ≤ n → ((user env).destroy code hs w).Settles False
        fun _ w' => w'.heap.stats.live ≤ w.heap.stats.live)
    (n : Nat) : (ample observe user budget).Frees O n :=
  fun h w ready _ => tie_frees henv huser (Nat.lt_succ_self _) h w ready le_rfl

end Env

end Causeway
