import Causeway.Proofs.CursorPlaces
import Causeway.Proofs.EagerExports
/-!
# Export, at once and on demand

The two ways a native sequence leaves convert its elements in loops of their own. With a converter
that is a function of the element they agree: on what converts, on what fails, and on where it ends.
Only a container has room made for it beforehand, which there may not be.
-/
set_option autoImplicit false

namespace Causeway

open Act

variable {U V α : Type} {O : Ownership U} {astray : Prop} {code : Option CodeId} {t : NativeType}
  {env : Env U} {K E : Multiset Handle} {P : Heap → Prop} {shows : V → Handle → Heap → Prop}
  {w : World U} {h : Handle} {image : t.Value → Option V}
  (m : env.Images O astray code t image shows)

def Yields (image : Option V) (shows : V → Handle → Heap → Prop) (out : Option Handle)
    (w : World U) : Prop :=
  match image with
  | some x => w.pending = none ∧ ∃ k, out = some k ∧ shows x k w.heap
  | none => out = none ∧ w.pending = some ⟨.typeError, "bad element in iterable"⟩

/-- No item is no end: the error says what came in its place. -/
theorem Yields.plain {image : Option V} {out : Option Handle}
    (hyields : Yields image shows out w) :
    w.pending.any (·.kind == .stopIteration) = false := by
  cases image with
  | none => simp [hyields.2]
  | some x => simp [hyields.1]

include m in
/-- What is handed over shows the same once a state is back. -/
theorem Yields.back {d : Descriptor} {s s' : Option NativeState} {o : Option V}
    {out : Option Handle} (hyields : Yields o shows out w)
    (away : w.heap.payload? h = some (.native d s)) :
    Yields o shows out { w with heap := w.heap.setPayload h (.native d s') } := by
  cases o with
  | none => exact hyields
  | some x =>
    obtain ⟨hclear, k, hk, hshows⟩ := hyields
    exact ⟨hclear, k, hk, m.state x k h _ _ _ _ away hshows⟩

/-- The state of an adapter stays away while user code runs. -/
theorem Env.Images.away_lasts (m : env.Images O astray code t image shows) (h : Handle) :
    env.Lasts O code t {h} fun heap => heap.payload? h = some .away where
  release := fun j E w hE hx away =>
    (m.spares h).release j E w (Multiset.singleton_le.1 hE) hx away
  convert := fun v E w hE hx _ away => by
    have hguards := convertOut_guards m.sheds.lawful (m.spares h) code t v E w
      (Multiset.singleton_le.1 hE) (by rwa [zero_add]) away
    exact hguards.mono fun _ _ _ h => h.2

namespace Adapter

variable {whole : Source t} {got : Nat} {a : Adapter} {v : t.Value}

theorem refuse_yields (hl : env.Lasts O code t K P) (hs : env.Sheds O astray) (out : Option Handle)
    (n : Nat) (hK : K ≤ E) (hx : Exact O (↑out.toList + E) w) (hP : P w.heap) :
    ((do
      releaseAll out.toList
      Indicator.clear
      Act.emit (.conversionFailed .element n)
      raiseType "bad element in iterable" : Act U Unit) env w).Settles astray fun _ w' =>
        w'.pending = some ⟨.typeError, "bad element in iterable"⟩ ∧ P w'.heap := by
  refine (hl.releaseAll_settles hs out.toList hK hx hP).bind fun _ w₁ _ h₁ => ?_
  obtain ⟨w₂, hclear, hnone, hheap⟩ := clear_run env w₁
  let w₃ : World U := { w₂ with client := env.observe (.conversionFailed .element n) w₂.client }
  obtain ⟨w₄, hraise, hpending, hheap'⟩ := raise_run (w := w₃) .typeError "bad element in iterable"
    env hnone
  have hr : (do
      Indicator.clear
      Act.emit (.conversionFailed .element n)
      raiseType "bad element in iterable" : Act U Unit) env w₁ = .done () w₄ := by
    rw [bind_run, hclear]
    exact hraise
  rw [hr]
  refine ⟨hpending, ?_⟩
  rw [hheap', hheap]
  exact h₁.2.2

include m in
/-- The item at the index is converted as it would be anywhere, and only then handed over. -/
theorem Over.step_yields (ha : Over code whole got a) (hv : whole.toList[got]? = some v)
    (hl : env.Lasts O code t K P) (hK : K ≤ E) (hx : Exact O (↑a.units + E) w)
    (clear : w.pending = none) (hP : P w.heap) :
    (a.step env w).Settles astray fun r w' => Over code whole (got + r.2.toList.length) r.1 ∧
      P w'.heap ∧ Yields (image v) shows r.2 w' := by
  obtain ⟨s, hlooked, hnext, hstep, hunits⟩ := ha.step_eq (U := U) hv
  rw [hstep env w clear]
  rw [hunits, add_assoc] at hx
  have hkept : K ≤ ↑s.units + E := hK.trans (Multiset.le_add_left _ _)
  have hconvert := holding_settles (⟨t, code, s, some (some v), got⟩ : Adapter).units
    (m.convert_settles hl hkept hx clear hP)
  unfold step
  rw [bind_run]
  simp only [Indicator.isSet, clear, Option.isSome_none, peek, Bool.false_eq_true, if_false]
  refine hconvert.bind fun out w₁ _ hout => ?_
  obtain ⟨-, hanswer, hx₁, hP₁⟩ := hout
  rw [bind_run]
  simp only [Indicator.isSet]
  cases himage : image v with
  | none =>
    rw [himage] at hanswer
    have hrefuse := holding_settles (⟨t, code, s, some (some v), got⟩ : Adapter).units
      (refuse_yields hl m.sheds out got (hkept.trans (Multiset.le_add_left _ _)) hx₁ hP₁)
    have hrefused : ((do
        holding (⟨t, code, s, some (some v), got⟩ : Adapter).units do
          releaseAll out.toList
          Indicator.clear
          Act.emit (.conversionFailed .element got)
          raiseType "bad element in iterable"
        pure (⟨t, code, s, some (some v), got⟩, none) : Act U (Adapter × Option Handle))
          env w₁).Settles astray fun r w' => Over code whole (got + r.2.toList.length) r.1 ∧
            P w'.heap ∧ Yields none shows r.2 w' :=
      hrefuse.bind fun _ w₂ _ h₂ => ⟨hlooked, h₂.2.2, rfl, h₂.2.1⟩
    cases out with
    | none => exact hrefused
    | some k =>
      obtain ⟨e, pending⟩ :=
        Option.ne_none_iff_exists'.1 (hanswer.resolve_left (Option.some_ne_none k))
      rw [pending]
      exact hrefused
  | some x =>
    rw [himage] at hanswer
    obtain ⟨clear₁, k, rfl, hshows⟩ := hanswer
    rw [clear₁]
    rw [add_left_comm] at hx₁
    have hreturn := (hl.and (m.lasts x k)).releaseAll_settles m.sheds (t.units v)
      (E := ↑(some k).toList + (↑s.units + E)) ?_ hx₁ ⟨hP₁, hshows⟩
    · exact (holding_settles _ hreturn).bind fun _ w₂ _ h₂ =>
        ⟨hnext, h₂.2.2.2.1, h₂.2.1.trans clear₁, k, rfl, h₂.2.2.2.2⟩
    · rw [add_comm K]
      exact add_le_add le_rfl hkept

end Adapter

section

variable {whole : Source t} {got : Nat} {a : Adapter} {v : t.Value} {xs ys : List V}
  {ks : List Handle}

def Adapting (h : Handle) (code : Option CodeId) (whole : Source t) (got : Nat) (w : World U) :
    Prop :=
  ∃ a, w.heap.payload? h = some (.native .adapter (some (.adapter a))) ∧
    Adapter.Over code whole got a

include m in
theorem iterNext_yields (hadapting : Adapting h code whole got w) (hv : whole.toList[got]? = some v)
    (hx : Exact O (↑ks + ({h} + E)) w) (clear : w.pending = none)
    (shown : Showing shows xs ks w.heap) :
    (iterNext h env w).Settles astray fun out w' =>
      Adapting h code whole (got + out.toList.length) w' ∧
      Showing shows xs ks w'.heap ∧ Exact O (↑out.toList + (↑ks + ({h} + E))) w' ∧
      Yields (image v) shows out w' := by
  obtain ⟨a, found, ha⟩ := hadapting
  obtain ⟨hlent, away⟩ := Drained.lending hx found
  have hkept : (↑ks + {h} : Multiset Handle) ≤ ↑ks + ({h} + E) := by
    rw [← add_assoc]
    exact Multiset.le_add_right _ _
  have hshown : Showing shows xs ks (w.lending h).heap :=
    shown.imp fun x k => m.state x k h _ _ _ _ found
  have hstep := ha.step_yields m hv ((Env.Lasts.showing m.lasts xs ks).and (m.away_lasts h)) hkept
    hlent clear ⟨hshown, away⟩
  have hstate := withState_settles .adapter Option.toList found rfl
    (P := fun r w' => Adapter.Over code whole (got + r.2.toList.length) r.1 ∧
      Showing shows xs ks w'.heap ∧ Yields (image v) shows r.2 w')
    (hstep.mono fun r w' _ h => ⟨⟨h.1, h.2.1.1, h.2.2⟩, h.2.1.2⟩)
  have hnext := iterNext_settles found (P := fun out w' =>
    Adapting h code whole (got + out.toList.length) w' ∧ Showing shows xs ks w'.heap ∧
      Yields (image v) shows out w') (hstate.mono ?_)
  · refine (hnext.conserved (iterNext_conserves h env m.sheds.lawful w hx.idle)).mono
      fun out w' _ h => ?_
    exact ⟨h.1.1, h.1.2.1, h.2.exact_join hx, h.1.2.2⟩
  · rintro o w' - ⟨r, w₁, ⟨hover, hshown₁, hyields⟩, waits, rfl, rfl⟩
    refine ⟨r.2, rfl, ⟨⟨r.1, ?_, hover⟩, ?_, hyields.back m waits⟩, fun _ => hyields.plain⟩
    · exact (Heap.setPayload_payload? waits _ h).trans (if_pos rfl)
    · exact hshown₁.imp fun x k => m.state x k h _ _ _ _ waits

include m in
theorem iterNext_exhausted (hadapting : Adapting h code whole got w)
    (hend : whole.toList.drop got = [])
    (hx : Exact O (↑ks + ({h} + E)) w) (clear : w.pending = none)
    (shown : Showing shows xs ks w.heap) :
    ∃ w', iterNext h env w = .done none w' ∧ w'.pending = none ∧ Adapting h code whole got w' ∧
      Showing shows xs ks w'.heap ∧ Exact O (↑ks + ({h} + E)) w' := by
  obtain ⟨a, found, ha⟩ := hadapting
  obtain ⟨b, hb, -, hstep⟩ := ha.step_end (w := w.lending h) hend clear
  let w₁ : World U := { w.lending h with client := env.observe (.sequenceEnded got) w.client }
  have waits : w₁.heap.payload? h = some .away := (Drained.lending hx found).2
  have hstate : withState h .adapter Option.toList Adapter.step env w = _ :=
    withState_done .adapter found rfl (hstep env) waits
  have hrun := iterNext_done (h := h) found hstate fun _ => by simp [World.lending, clear]
  have hout := iterNext_conserves (O := O) (d := .strict) h env m.sheds.lawful w hx.idle
  rw [hrun] at hout
  refine ⟨_, hrun, clear, ⟨b, ?_, hb⟩, ?_, hout.1.exact_aside hx⟩
  · exact (Heap.setPayload_payload? waits _ h).trans (if_pos rfl)
  · exact shown.imp fun x k hk => m.state x k h _ _ _ _ waits (m.state x k h _ _ _ _ found hk)

/-- Asks for `n` items and keeps what comes, up to the first time that nothing does. -/
def pull (h : Handle) : (n : Nat) → (kept : List Handle) → Act U (List Handle)
  | 0, kept => pure kept
  | n + 1, kept => do
    match ← iterNext h with
    | some k => pull h n (kept ++ [k])
    | none => pure kept

include m in
theorem pull_settles (n : Nat) {ending : List (Option V)} (hadapting : Adapting h code whole got w)
    (split : (whole.toList.drop got).map image = xs.map some ++ ending)
    (last : ending.head?.join = none) (hx : Exact O (↑ks + ({h} + E)) w) (clear : w.pending = none)
    (shown : Showing shows ys ks w.heap) :
    (pull h n ks env w).Settles astray fun ks' w' => Showing shows (ys ++ xs.take n) ks' w'.heap ∧
      Exact O (↑ks' + ({h} + E)) w' ∧ (n ≤ xs.length ∨ ending = [] → w'.pending = none) ∧
      (xs.length < n → ending ≠ [] →
        w'.pending = some ⟨.typeError, "bad element in iterable"⟩) := by
  induction n generalizing got w xs ys ks with
  | zero =>
    refine ⟨?_, hx, fun _ => clear, nofun⟩
    rwa [List.take_zero, List.append_nil]
  | succ n ih =>
    unfold pull
    cases hleft : whole.toList.drop got with
    | nil =>
      rw [hleft] at split
      obtain ⟨hxs, rfl⟩ := List.append_eq_nil_iff.1 split.symm
      obtain rfl := List.map_eq_nil_iff.1 hxs
      obtain ⟨w', hrun, clear', -, hshown', hx'⟩ :=
        iterNext_exhausted m hadapting hleft hx clear shown
      rw [bind_run, hrun]
      refine ⟨?_, hx', fun _ => clear', fun _ hne => absurd rfl hne⟩
      rwa [List.take_nil, List.append_nil]
    | cons v vs =>
      obtain ⟨hv, hdrop⟩ := Adapter.drop_eq_cons hleft.symm
      rw [hleft, List.map_cons] at split
      refine (iterNext_yields m hadapting hv hx clear shown).bind fun out w₁ _ h₁ => ?_
      obtain ⟨hadapting₁, hshown₁, hx₁, hyields⟩ := h₁
      cases xs with
      | nil =>
        obtain rfl : ending = image v :: vs.map image := split.symm
        have hnone : image v = none := last
        rw [hnone] at hyields
        obtain ⟨rfl, hpending⟩ := hyields
        refine ⟨?_, by simpa using hx₁, fun h => ?_, fun _ _ => hpending⟩
        · rwa [List.take_nil, List.append_nil]
        · simp at h
      | cons x xs =>
        obtain ⟨hsome, hrest⟩ := List.cons.inj split
        rw [hsome] at hyields
        obtain ⟨clear₁, k, rfl, hshows⟩ := hyields
        have hshown₂ : Showing shows (ys ++ [x]) (ks ++ [k]) w₁.heap :=
          List.rel_append hshown₁ (.cons hshows .nil)
        have hx₂ : Exact O (↑(ks ++ [k]) + ({h} + E)) w₁ := by
          refine Eq.mp (congrArg (fun H => Exact O H w₁) ?_) hx₁
          simp only [Option.toList_some, coe_append, Multiset.coe_singleton]
          abel
        rw [← hdrop] at hrest
        refine (ih hadapting₁ hrest hx₂ clear₁ hshown₂).mono fun ks' w' _ h => ⟨?_, h.2.1, ?_, ?_⟩
        · have hshown' := h.1
          rwa [List.append_assoc] at hshown'
        · exact fun hor => h.2.2.1 (hor.imp_left Nat.le_of_succ_le_succ)
        · exact fun hlt => h.2.2.2 (Nat.lt_of_succ_lt_succ hlt)

/-- On demand an export is an adapter that has not begun, and nothing is converted for it. -/
theorem exportSource_onDemand (hs : env.Sheds O astray) (source : Source t) (code : Option CodeId)
    (beyond : source.beyond.flatMap t.units = []) (hx : Exact O (↑source.units + E) w) :
    ∃ h w', exportSource source code .onDemand env w = .done (.ok h) w' ∧
      Adapting h code source 0 w' ∧ w'.pending = w.pending ∧ Exact O ({h} + E) w' := by
  let w₁ : World U := { w with
    client := env.observe (.typeDescribed Descriptor.adapter.name StateKind.adapter.path) w.client }
  have hx₁ : Exact O (↑source.units + E) w₁ :=
    ((Noted.event .nothing _).path hs.lawful).exact_aside hx
  have hunits : (Payload.native .adapter (some (.adapter (.start source code)))).units =
      source.units := by
    simp [Payload.units, NativeState.units, Adapter.units, Adapter.start]
  obtain ⟨h, w', hrun, -, hfound, hpending, hx'⟩ := alloc_exact hs.lawful hunits hx₁
  refine ⟨h, w', ?_, ⟨_, hfound, .start beyond⟩, hpending, hx'⟩
  change (alloc (.native .adapter (some (.adapter (.start source code)))) >>= fun h =>
    pure (Except.ok h)) env w₁ = _
  rw [bind_run, hrun]
  rfl

end

/-- What a finished export comes to; `xs` are the images of the elements, up to the first that has
none. -/
inductive Exported (O : Ownership U) (code : Option CodeId) (env : Env U)
    (shows : V → Handle → Heap → Prop) (hash : V → Option Key) (source : Source t) (xs : List V)
    (E : Multiset Handle) (w : World U) (mode : OutputMode) :
    Except Failure Handle → World U → Prop where
  | sequence {s : Handle} {ks : List Handle} {w₁ w' : World U} (ordered : ¬ mode.isSet)
      (all : xs.length = source.toList.length) (made : Conversions code env source.toList w ks w₁)
      (found : w'.heap.payload? s = some (mode.sequence ks))
      (shown : Showing shows xs ks w'.heap) (clear : w'.pending = none)
      (exact : Exact O ({s} + E) w') :
      Exported O code env shows hash source xs E w mode (.ok s) w'
  | set {s : Handle} {ks kept : List Handle} {w₁ w₂ w' : World U} (unordered : mode.isSet)
      (all : xs.length = source.toList.length) (made : Conversions code env source.toList w ks w₁)
      (rest : releaseAll (source.beyond.flatMap t.units) env w₁ = .done () w₂)
      (built : newSet ks env w₂ = .done (some s) w') (hashable : ∀ x ∈ xs, hash x ≠ none)
      (found : w'.heap.payload? s = some (.set kept)) (some_of : kept.Sublist ks)
      (clear : w'.pending = none) (exact : Exact O ({s} + E) w') :
      Exported O code env shows hash source xs E w mode (.ok s) w'
  | unhashable {ks : List Handle} {w₁ w₂ w' : World U} (unordered : mode.isSet)
      (all : xs.length = source.toList.length) (made : Conversions code env source.toList w ks w₁)
      (rest : releaseAll (source.beyond.flatMap t.units) env w₁ = .done () w₂)
      (built : newSet ks env w₂ = .done none w') (keyless : ∃ x ∈ xs, hash x = none)
      (pending : Unhashable w') (exact : Exact O E w') :
      Exported O code env shows hash source xs E w mode (.error .alreadyRaised) w'
  | stopped {w' : World U} (some_left : xs.length < source.toList.length)
      (stops : StopsAt code env source.toList xs.length w
        (fun ks left => undo ks (left ++ source.beyond.flatMap t.units) xs.length)
        (exportSource source code mode env w))
      (clear : w'.pending = none) (exact : Exact O E w') :
      Exported O code env shows hash source xs E w mode
        (.error (.of (.elementConversion xs.length))) w'

theorem firstValues_split {α β : Type} (f : β → Option α) (vs : List β) :
    ∃ ending, vs.map f = (firstValues f vs).map some ++ ending ∧ ending.head?.join = none ∧
      (firstValues f vs).length + ending.length = vs.length := by
  induction vs with
  | nil => exact ⟨[], rfl, rfl, rfl⟩
  | cons v vs ih =>
    cases hv : f v with
    | none => exact ⟨none :: vs.map f, by simp [firstValues, hv], rfl, by simp [firstValues, hv]⟩
    | some x =>
      obtain ⟨ending, hsplit, hlast, hlength⟩ := ih
      refine ⟨ending, by simp [firstValues, hv, hsplit], hlast, ?_⟩
      simp only [firstValues, hv, List.length_cons]
      omega

section

variable {source : Source t} {hash : V → Option Key} {mode : OutputMode}

include m in
theorem exportSource_exported (hmode : mode ≠ .onDemand)
    (room : source.hint * Handle.width < 2 ^ 63) (hashed : mode.isSet → Hashes shows hash)
    (hx : Exact O (↑source.units + E) w) (clear : w.pending = none) :
    (exportSource source code mode env w).Settles astray
      (Exported O code env shows hash source (firstValues image source.toList) E w mode) := by
  obtain ⟨ending, split, last, hlength⟩ := firstValues_split image source.toList
  refine exportSource_settles m hmode room split last hx clear ?_ fun hend w' hclear hx' hstops => ?_
  · intro hend ks w₁ w₂ hmade hrest hshown hclear hx₂
    have hall : (firstValues image source.toList).length = source.toList.length := by
      rw [← hlength, hend]
      rfl
    by_cases hset : mode.isSet
    · rw [gather_set hset]
      refine (newSet_settles m (hashed hset) hx₂ hclear hshown).bind fun o w' hbuilt h => ?_
      by_cases hno : ∃ x ∈ firstValues image source.toList, hash x = none
      · obtain ⟨rfl, hpending, hx'⟩ := h.2 hno
        exact .unhashable hset hall hmade hrest hbuilt hno hpending hx'
      · have hyes : ∀ x ∈ firstValues image source.toList, hash x ≠ none :=
          fun x hx hnone => hno ⟨x, hx, hnone⟩
        obtain ⟨s, kept, rfl, hsub, hfound, hclear', hx'⟩ := h.1 hyes
        exact .set hset hall hmade hrest hbuilt hyes hfound hsub hclear' hx'
    · obtain ⟨s, w', hrun, hfound, hshown', hpending, hx'⟩ := gather_sequence m hset hx₂ hshown
      rw [hrun]
      exact .sequence hset hall hmade hfound hshown' (hpending.trans hclear) hx'
  · have hpos : 0 < ending.length := List.length_pos_iff.2 hend
    exact .stopped (by omega) hstops hclear hx'

include m in
/-- The units of a sequence that promises too much are given back, and no others. -/
theorem exportSource_overflows (hmode : mode ≠ .onDemand)
    (full : 2 ^ 63 ≤ source.hint * Handle.width) (hx : Exact O (↑source.units + E) w)
    (clear : w.pending = none) :
    astray ∨ ∃ w', exportSource source code mode env w = .fault .capacityOverflow w' ∧
      w'.pending = none ∧ Exact O E w' := by
  have hback := m.sheds.releaseAll_settles source.units (hx.ready.of_frame E)
  have hrun := exportSource_full code env source hmode clear full
  cases hreleased : releaseAll source.units env w with
  | done _ w' =>
    rw [hreleased] at hback
    refine .inr ⟨w', ?_, hback.1.trans clear, hback.2.exact_spend hx⟩
    simp only [hrun, holding, onFault, Act.fault, hreleased]
  | fault _ _ | unfinished =>
    rw [hreleased] at hback
    exact .inl hback

end

def isNegative (v : Int64) : Bool := v < 0

def turnedDown : (t : NativeType) → t.Value → Bool
  | .i64, v => isNegative v
  | _, _ => false

/-- Converts every value, and says of some that they are negative. -/
def decline (t : NativeType) (v : t.Value) : Act Nat (Option Handle) := do
  let out ← toPeer t v
  if turnedDown t v then raise .valueError "negative"
  pure out

def decliningHooks (env : Env Nat) : Hooks Nat where
  call := fun _ _ w => .done none w
  slot := fun _ _ w => .done none w
  measure := fun _ _ w => .done none w
  destroy := fun _ hs w => releaseAll hs env w
  toPeer := fun _ t v w => decline t v env w

def declining : Env Nat := .ample (fun _ n => n) decliningHooks 1

def emptyWorld : World Nat := { impatientWorld with heap := .empty }

def accepted (v : Int64) : Option Int64 := if isNegative v then none else some v

def showsInt (v : Int64) (k : Handle) (heap : Heap) : Prop := heap.payload? k = some (.int v)

theorem decline_conserves {d : Discipline} (t : NativeType) (v : t.Value) :
    Conserves .blank d 0 (decline t v) fun o => ↑o.toList := by
  refine .next (toPeer_conserves t v) fun out => ?_
  split
  · exact .aside (raise_conserves _ _) fun _ => .pure rfl
  · exact .pure rfl

theorem decliningHooks_lawful {env : Env Nat} (henv : env.Lawful .blank) :
    (decliningHooks env).Lawful .blank where
  call := fun _ _ _ _ _ => ⟨.refl, rfl⟩
  slot := fun _ _ _ _ _ => ⟨.refl, rfl⟩
  measure := fun _ _ _ _ _ => ⟨.refl, rfl⟩
  destroy := fun _ _ hs w hw => releaseAll_conserves hs env henv w hw
  toPeer := fun _ _ t v w hw => decline_conserves t v env henv w hw

theorem decliningTie_lawful (n : Nat) : (Env.tie (fun _ u => u) decliningHooks n).Lawful .blank :=
  tie_lawful (fun _ _ => rfl) (fun _ _ => rfl) (fun _ _ h => h) (fun _ => decliningHooks_lawful) n

theorem declining_lawful : declining.Lawful .blank :=
  Env.ample_lawful decliningTie_lawful fun _ => decliningHooks_lawful

theorem declining_sheds : declining.Sheds .blank False where
  lawful := declining_lawful
  calm := Env.ample_calm (tie_calm fun _ hcalm _ hs _ => releaseAll_calm hcalm hs)
  release := fun k w ready => by
    have hfrees : declining.Frees .blank w.heap.stats.live :=
      Env.ample_frees decliningTie_lawful (fun env n henv hf _ hs w ready hlive =>
        releaseAll_frees henv hf hs ready hlive) _
    exact (hfrees k w ready le_rfl).mono fun _ _ _ _ => trivial

theorem decliningHooks_spares {h : Handle} {p : Payload} {env : Env Nat} (henv : env.Lawful .blank)
    (hspares : env.Spares .blank h p) : (decliningHooks env).Spares .blank h p where
  call := fun _ _ _ _ _ _ => id
  slot := fun _ _ _ _ _ _ => id
  measure := fun _ _ _ _ _ _ => id
  destroy := fun _ hs E w hE hx found =>
    (releaseAll_guards henv hspares hs E w hE hx found).mono fun _ _ _ h => h.2
  toPeer := fun _ t v E w hE hx found => by
    have hdecline : (decline t v).Guards .blank h p env 0 fun o => ↑o.toList := by
      refine .next (toPeer_guards henv hspares t v) fun out => ?_
      split
      · exact .aside (.still henv (raise_conserves _ _) (.raise _ _)) fun _ => .pure rfl
      · exact .pure rfl
    exact (hdecline E w hE (by rwa [zero_add]) found).mono fun _ _ _ h => h.2

theorem decline_run (v : Int64) (env : Env Nat) (w : World Nat) (hin : w.heap.InOrder)
    (clear : w.pending = none) :
    ∃ k w', decline .i64 v env w = .done (some k) w' ∧ showsInt v k w'.heap ∧
      (w'.pending = none ↔ isNegative v = false) := by
  obtain ⟨w₁, halloc, hpending, hheap⟩ := alloc_run (.int v) env w
  have hfound : showsInt v (w.heap.insert (.int v)).1 w₁.heap := by
    rw [showsInt, hheap, Heap.payload?, Heap.insert_entryAt? hin, if_pos rfl]
    rfl
  have hout : toPeer .i64 v env w = .done (some (w.heap.insert (.int v)).1) w₁ := by
    change (alloc (.int v) >>= fun k => pure (some k)) env w = _
    rw [bind_run, halloc]
    rfl
  cases hneg : isNegative v with
  | false =>
    refine ⟨_, w₁, ?_, hfound, iff_of_true (hpending.trans clear) rfl⟩
    simp [decline, bind_run, hout, turnedDown, hneg, pure_run]
  | true =>
    obtain ⟨w₂, hraise, hraised, hheap₂⟩ := raise_run (w := w₁) .valueError "negative" env
      (hpending.trans clear)
    refine ⟨_, w₂, ?_, by rw [showsInt, hheap₂]; exact hfound, by simp [hraised]⟩
    simp [decline, bind_run, hout, turnedDown, hneg, hraise, pure_run]

theorem int_fixed (x : Int64) (q : Payload) : ¬ (Payload.int x).Change q := nofun

theorem declining_images : declining.Images .blank False (some 0) .i64 accepted showsInt where
  sheds := declining_sheds
  spares := fun h => Env.ample_spares decliningTie_lawful fun _ => decliningHooks_spares
  convert := fun v E w hx clear => by
    obtain ⟨k, w', hrun, hshows, hiff⟩ := decline_run v
      (.tie (fun _ n => n) decliningHooks (2 * w.heap.stats.live + 1)) w hx.inOrder clear
    change (decline .i64 v _ w).Settles False _
    rw [hrun]
    cases hneg : isNegative v with
    | true =>
      have himage : accepted v = none := if_pos hneg
      rw [himage]
      exact .inr (by simp [hiff, hneg])
    | false =>
      have himage : accepted v = some v := if_neg (Bool.eq_false_iff.1 hneg)
      rw [himage]
      exact ⟨hiff.2 hneg, k, rfl, hshows⟩
  lasts := fun x _ => .fixed declining_lawful (int_fixed x)
  insert := fun x k p heap hin hk => by
    obtain ⟨e, he, -⟩ := (Heap.payload?_eq_some_iff _ _ _).1 hk
    have hne : k ≠ (heap.insert p).1 := by
      rintro rfl
      rw [Heap.insert_fresh hin p] at he
      cases he
    rwa [showsInt, Heap.payload?, Heap.insert_entryAt? hin, if_neg hne]
  state := fun x k h d s s' heap hstate hk => by
    have hne : k ≠ h := by
      rintro rfl
      cases hstate.symm.trans hk
    rwa [showsInt, Heap.setPayload_payload? hstate, if_neg hne]

def intKey (v : Int64) : Option Key := some (.int v)

theorem showsInt_hashes : Hashes showsInt intKey := by
  intro v k heap _ hk
  simp [intKey, Heap.key?, show heap.payload? k = some (.int v) from hk]

theorem emptyWorld_exact : Exact .blank 0 emptyWorld :=
  ⟨Heap.empty_inOrder, fun _ => rfl, trivial⟩

def goodInts : Source .i64 := .listed [(5 : Int64), (7 : Int64)] true

def mixedInts : Source .i64 := .listed [(5 : Int64), (-1 : Int64), (7 : Int64)] true

/-- More integers than a list has room for; the first of them is turned down. -/
def manyInts : Source .i64 := .span (-1) (2 ^ 62)

end Causeway
