import Causeway.Convert.Inward
import Causeway.Proofs.Nesting
import Causeway.Proofs.ReleaseOrder
/-!
# Readers of a tuple

Slots of an argument container start empty, and who reads one with gaps sees one of three things.
An iterator stops at the first gap, the items are those of all filled slots, and lengths count the
slots. A conversion that expects so many items counts the filled slots. The readers agree on the
tuples without a gap and on no other.
-/
set_option autoImplicit false

namespace Causeway

open Act

variable {U : Type} {env : Env U} {w w₁ : World U} {it t h : Handle}
  {slots : List (Option Handle)} {base : Handle → Option HeapEntry} {units : Multiset Handle}
  {i : Nat}

/-- What an iterator hands out until it has nothing more and leaves everything as it is. -/
inductive HandsOut (env : Env U) (it : Handle) : World U → List Handle → World U → Prop where
  | stop {w : World U} (run : iterNext it env w = .done none w) : HandsOut env it w [] w
  | item {w w₁ w₂ : World U} {h : Handle} {hs : List Handle}
      (run : iterNext it env w = .done (some h) w₁) (rest : HandsOut env it w₁ hs w₂) :
      HandsOut env it w (h :: hs) w₂

def uptoGap : List (Option Handle) → List Handle
  | some h :: slots => h :: uptoGap slots
  | _ => []

theorem uptoGap_isPrefix (slots : List (Option Handle)) : uptoGap slots <+: slots.filterMap id := by
  induction slots with
  | nil => exact List.prefix_rfl
  | cons slot slots ih =>
    cases slot with
    | none => exact List.nil_prefix
    | some h => simpa [uptoGap] using ih

theorem filled_length_le (slots : List (Option Handle)) :
    (slots.filterMap id).length ≤ slots.length := List.length_filterMap_le id slots

theorem filled_length_iff (slots : List (Option Handle)) :
    (slots.filterMap id).length = slots.length ↔ none ∉ slots := by
  induction slots with
  | nil => simp
  | cons slot slots ih =>
    cases slot with
    | none =>
      have hle := filled_length_le slots
      rw [List.filterMap_cons_none rfl, List.length_cons]
      exact ⟨fun heq => by omega, fun hnot => absurd List.mem_cons_self hnot⟩
    | some h => simpa using ih

theorem uptoGap_length_iff (slots : List (Option Handle)) :
    (uptoGap slots).length = slots.length ↔ none ∉ slots := by
  induction slots with
  | nil => simp [uptoGap]
  | cons slot slots ih =>
    cases slot with
    | none => simp [uptoGap]
    | some h => simpa [uptoGap] using ih

/-- Iteration, items and length are one without a gap, and never with one. -/
theorem readers_agree_iff (slots : List (Option Handle)) :
    uptoGap slots = slots.filterMap id ∧ (slots.filterMap id).length = slots.length ↔
      none ∉ slots := by
  refine ⟨fun h => (filled_length_iff slots).1 h.2, fun hfull => ?_⟩
  have hitems := (filled_length_iff slots).2 hfull
  have hyielded := (uptoGap_length_iff slots).2 hfull
  exact ⟨(uptoGap_isPrefix slots).eq_of_length (hyielded.trans hitems.symm), hitems⟩

theorem iterNext_filled (ho : Overlay base {(it, ⟨1, .iterator t i⟩)} units w.heap)
    (found : w.heap.payload? t = some (.tuple slots)) (hslot : slots[i]? = some (some h))
    (hbase : ∃ e, base h = some e) (env : Env U) :
    ∃ w₁, iterNext it env w = .done (some h) w₁ ∧
      Overlay base {(it, ⟨1, .iterator t (i + 1)⟩)} ({h} + units) w₁.heap := by
  obtain ⟨e, he⟩ := hbase
  obtain ⟨w₁, hacquire, -, ho₁⟩ := acquire_overlay ho he env
  have hit₁ : w₁.heap.payload? it = some (.iterator t i) :=
    ho₁.payload?_own (Multiset.mem_singleton_self _)
  refine ⟨{ w₁ with heap := w₁.heap.setPayload it (.iterator t (i + 1)) }, ?_, ?_⟩
  · rw [iterNext_builtin (ho.payload?_own (Multiset.mem_singleton_self _)) found]
    simp only [Payload.stepAt, hslot, bind_run, hacquire, moveTo_run hit₁]
    rfl
  · rw [← add_zero {(it, _)}] at ho₁
    exact (ho₁.setPayload_own _).congr (add_zero _) rfl

theorem iterNext_gap (ho : Overlay base {(it, ⟨1, .iterator t i⟩)} units w.heap)
    (found : w.heap.payload? t = some (.tuple slots)) (hslot : ∀ h, slots[i]? ≠ some (some h))
    (env : Env U) : iterNext it env w = .done none w := by
  rw [iterNext_builtin (ho.payload?_own (Multiset.mem_singleton_self _)) found]
  have hstop : (Payload.tuple slots).stepAt i = .stop := by simp only [Payload.stepAt]
  rw [hstop]
  rfl

theorem handsOut_uptoGap {rest : List (Option Handle)} {e : HeapEntry}
    (ho : Overlay base {(it, ⟨1, .iterator t i⟩)} units w.heap) (hbase : base t = some e)
    (hbody : e.payload = .tuple slots) (hrest : slots.drop i = rest)
    (alive : ∀ h ∈ slots.filterMap id, ∃ e, base h = some e) (env : Env U) :
    ∃ w₁, HandsOut env it w (uptoGap rest) w₁ := by
  have found : w.heap.payload? t = some (.tuple slots) := hbody ▸ ho.payload?_base hbase
  have hhead : slots[i]? = rest[0]? := by rw [← hrest]; simp
  induction rest generalizing i units w with
  | nil => exact ⟨w, .stop (iterNext_gap ho found (by simp [hhead]) env)⟩
  | cons slot rest ih =>
    cases slot with
    | none => exact ⟨w, .stop (iterNext_gap ho found (by simp [hhead]) env)⟩
    | some h =>
      have hslot : slots[i]? = some (some h) := by simpa using hhead
      have hmem : h ∈ slots.filterMap id :=
        List.mem_filterMap.2 ⟨some h, List.mem_of_getElem? hslot, rfl⟩
      obtain ⟨w₁, hrun, ho₁⟩ := iterNext_filled ho found hslot (alive h hmem) env
      have hrest₁ : slots.drop (i + 1) = rest := by
        rw [← List.drop_drop, hrest]
        rfl
      obtain ⟨w₂, hout⟩ := ih ho₁ hrest₁ (hbody ▸ ho₁.payload?_base hbase)
        (by rw [← hrest₁]; simp)
      exact ⟨w₂, .item hrun hout⟩

theorem getIter_tuple (ho : w.heap.InOrder) (found : w.heap.payload? t = some (.tuple slots))
    (alive : ∀ h ∈ slots.filterMap id, w.heap.isAlive h = true) (env : Env U) :
    ∃ it w₁ w₂, getIter t env w = .done (some it) w₁ ∧ HandsOut env it w₁ (uptoGap slots) w₂ := by
  obtain ⟨e, he, hbody⟩ := (Heap.payload?_eq_some_iff _ _ _).1 found
  obtain ⟨w₁, hacquire, -, ho₁⟩ := acquire_overlay (.start ho) he env
  obtain ⟨it, w₂, halloc, -, ho₂⟩ := alloc_overlay ho₁ (.iterator t 0) env
  obtain ⟨w₃, hout⟩ := handsOut_uptoGap (ho₂.congr (add_zero _) rfl) he hbody List.drop_zero
    (fun h hh => (Heap.isAlive_iff _ _).1 (alive h hh)) env
  refine ⟨it, w₂, w₃, ?_, hout⟩
  simp only [getIter, bind_run, Act.heap, found, hacquire]
  change (alloc (.iterator t 0) >>= fun h => pure (some h)) env w₁ = _
  rw [bind_run, halloc]
  rfl

theorem tupleItems_lent (ho : w.heap.InOrder) (found : w.heap.payload? t = some (.tuple slots))
    (alive : ∀ h ∈ slots.filterMap id, w.heap.isAlive h = true) (env : Env U) :
    ∃ w₁, tupleItems t env w = .done (some (slots.filterMap id)) w₁ ∧
      Lent w ↑(slots.filterMap id) w₁ := by
  obtain ⟨w₁, hacquire, hl⟩ := acquireBehind_lent [] (.start ho) alive env
  rw [List.nil_append] at hacquire
  refine ⟨w₁, ?_, hl.congr (add_zero _)⟩
  have hrun : tupleItems t env w =
      (acquireAll (slots.filterMap id) >>= fun hs => pure (some hs)) env w := by
    simp only [tupleItems, bind_run, Act.heap, found]
    rfl
  rw [hrun, bind_run, acquireAll, hacquire]
  rfl

theorem lengths_tuple (found : w.heap.payload? t = some (.tuple slots)) (env : Env U) :
    lengthOf t env w = .done (some slots.length) w ∧
      lengthHint t env w = .done (some slots.length) w :=
  lengths_run found rfl env

theorem expectTuple_iff (ho : w.heap.InOrder) (found : w.heap.payload? t = some (.tuple slots))
    (alive : ∀ h ∈ slots.filterMap id, w.heap.isAlive h = true) (arity : Nat) (env : Env U) :
    (∃ items w', expectTuple t arity env w = .done (some items) w') ↔
      arity = (slots.filterMap id).length := by
  obtain ⟨w₁, hitems, -⟩ := tupleItems_lent ho found alive env
  rw [expectTuple, bind_run, hitems]
  dsimp only
  constructor
  · rintro ⟨items, w', hrun⟩
    by_contra harity
    rw [if_neg (Ne.symm harity)] at hrun
    obtain ⟨_, w₂, -, hrun⟩ := bind_eq_done.1 hrun
    obtain ⟨_, w₃, -, hrun⟩ := bind_eq_done.1 hrun
    cases hrun
  · rintro rfl
    rw [if_pos rfl]
    exact ⟨_, w₁, rfl⟩

theorem expectTuple_refuses (ho : w.heap.InOrder) (deep : env.Deep 1) (clear : w.pending = none)
    (found : w.heap.payload? t = some (.tuple slots))
    (alive : ∀ h ∈ slots.filterMap id, w.heap.isAlive h = true) {arity : Nat}
    (harity : (slots.filterMap id).length ≠ arity) :
    ∃ w', expectTuple t arity env w = .done none w' ∧ w'.pending = some ⟨.typeError,
        s!"expected a tuple of length {arity}, got {(slots.filterMap id).length}"⟩ ∧
      ∀ k, w'.heap.entryAt? k = w.heap.entryAt? k := by
  obtain ⟨w₁, hitems, hl⟩ := tupleItems_lent ho found alive env
  obtain ⟨w₂, hraise, hpending, hheap⟩ := raise_run .typeError
    s!"expected a tuple of length {arity}, got {(slots.filterMap id).length}" env
    (hl.pending.trans clear)
  obtain ⟨w', hback, hpending', ho'⟩ := releaseAll_shared _ deep
    (hheap ▸ hl.overlay.congr rfl (add_zero _).symm)
  refine ⟨w', ?_, hpending'.trans hpending, ho'.entryAt?_eq⟩
  rw [expectTuple, bind_run, hitems]
  dsimp only
  rw [if_neg harity, bind_run, holding, raiseType, onFault_done hraise]
  dsimp only
  rw [bind_run, hback]
  rfl

/-- What each reader makes of a tuple, and when it makes the same of it as the others. -/
theorem tuple_readers (observe : Log.Event → U → U) (user : Env U → Hooks U) (n : Nat)
    {O : Ownership U} {H : Multiset Handle} (hx : Exact O H w)
    (found : w.heap.payload? t = some (.tuple slots)) :
    (∃ it w₁ w₂, getIter t (.tie observe user (n + 1)) w = .done (some it) w₁ ∧
      HandsOut (.tie observe user (n + 1)) it w₁ (uptoGap slots) w₂) ∧
    (∃ w', tupleItems t (.tie observe user (n + 1)) w = .done (some (slots.filterMap id)) w') ∧
    lengthOf t (.tie observe user (n + 1)) w = .done (some slots.length) w ∧
    lengthHint t (.tie observe user (n + 1)) w = .done (some slots.length) w ∧
    (∀ arity, (∃ items w', expectTuple t arity (.tie observe user (n + 1)) w =
      .done (some items) w') ↔ arity = (slots.filterMap id).length) ∧
    (∀ arity, arity ≠ (slots.filterMap id).length → w.pending = none →
      ∃ w', expectTuple t arity (.tie observe user (n + 1)) w = .done none w' ∧
        w'.pending = some ⟨.typeError,
          s!"expected a tuple of length {arity}, got {(slots.filterMap id).length}"⟩) ∧
    uptoGap slots <+: slots.filterMap id ∧
    (uptoGap slots = slots.filterMap id ∧ (slots.filterMap id).length = slots.length ↔
      none ∉ slots) := by
  have deep : (Env.tie observe user (n + 1)).Deep 1 :=
    (tie_deep observe user (n + 1)).of_le (Nat.le_add_left 1 n)
  have alive : ∀ h ∈ slots.filterMap id, w.heap.isAlive h = true := fun h hh =>
    hx.isAlive (Multiset.mem_add.2 (.inr (Heap.mem_units found hh)))
  obtain ⟨hlength, hhint⟩ := lengths_tuple found (.tie observe user (n + 1))
  obtain ⟨w₁, hitems, -⟩ := tupleItems_lent hx.inOrder found alive (.tie observe user (n + 1))
  refine ⟨getIter_tuple hx.inOrder found alive _, ⟨w₁, hitems⟩, hlength, hhint,
    fun arity => expectTuple_iff hx.inOrder found alive arity _, fun arity harity clear => ?_,
    uptoGap_isPrefix slots, readers_agree_iff slots⟩
  obtain ⟨w', hrun, hpending, -⟩ :=
    expectTuple_refuses hx.inOrder deep clear found alive (Ne.symm harity)
  exact ⟨w', hrun, hpending⟩

def gapped : Heap :=
  (((Heap.empty.insert (.int 7)).2.insert (.int 8)).2.insert
    (.tuple [some ⟨0, 0⟩, none, some ⟨1, 0⟩])).2

theorem gapped_exact : Exact .blank {⟨2, 0⟩} (bare gapped) := by
  have hempty : Exact .blank 0 (bare .empty) := ⟨Heap.empty_inOrder, fun _ => rfl, trivial⟩
  have hitems : Exact .blank ({⟨1, 0⟩} + ({⟨0, 0⟩} + 0))
      (bare ((Heap.empty.insert (.int 7)).2.insert (.int 8)).2) :=
    (hempty.insert_leaf (.int 7) rfl).insert_leaf (.int 8) rfl
  exact Move.exact (.insert 0 (bare ((Heap.empty.insert (.int 7)).2.insert (.int 8)).2)
      (.tuple [some ⟨0, 0⟩, none, some ⟨1, 0⟩]))
    (Eq.mp (congrArg (fun H => Exact .blank H _) (by decide)) hitems)

/-- One object is yielded, there are two items, and the length is three. -/
theorem tuple_readers_gapped :
    (∃ it w₁ w₂, getIter ⟨2, 0⟩ (.tie (fun _ u => u) (fun _ => .exhausted) 1) (bare gapped) =
        .done (some it) w₁ ∧
      HandsOut (.tie (fun _ u => u) (fun _ => .exhausted) 1) it w₁ [⟨0, 0⟩] w₂) ∧
    (∃ w', tupleItems ⟨2, 0⟩ (.tie (fun _ u => u) (fun _ => .exhausted) 1) (bare gapped) =
      .done (some [⟨0, 0⟩, ⟨1, 0⟩]) w') ∧
    lengthOf ⟨2, 0⟩ (.tie (fun _ u => u) (fun _ => .exhausted) 1) (bare gapped) =
      .done (some 3) (bare gapped) := by
  obtain ⟨hout, hitems, hlength, -⟩ :=
    tuple_readers (fun _ u => u) (fun _ => .exhausted) 0 gapped_exact (t := ⟨2, 0⟩) rfl
  exact ⟨hout, hitems, hlength⟩

open Machine Program

/-- The first of two arguments was not set: nothing is yielded, there is one item, the length is
two, and a tuple of length two is refused as one of length one. -/
theorem tuple_readers_disagree : ∃ e₁ e₂ w₁ w₂,
    runOp [] (.op (.newArguments 2) (some "t") none false) (envOf 3) (start false {}) =
      .done e₁ w₁ ∧
    runOp [] (.op (.setArgument "t" 1 .null) none none false) (envOf 3) w₁ = .done e₂ w₂ ∧
    (∃ it w₃, getIter ⟨0, 0⟩ (envOf 3) w₂ = .done (some it) w₃ ∧
      iterNext it (envOf 3) w₃ = .done none w₃ ∧ w₃.pending = none) ∧
    (∃ w₃, tupleItems ⟨0, 0⟩ (envOf 3) w₂ = .done (some [⟨1, 0⟩]) w₃) ∧
    lengthOf ⟨0, 0⟩ (envOf 3) w₂ = .done (some 2) w₂ ∧
    lengthHint ⟨0, 0⟩ (envOf 3) w₂ = .done (some 2) w₂ ∧
    ∃ w₃, expectTuple ⟨0, 0⟩ 2 (envOf 3) w₂ = .done none w₃ :=
  ⟨_, _, _, _, rfl, rfl, ⟨_, _, rfl, rfl, rfl⟩, ⟨_, rfl⟩, rfl, rfl, ⟨_, rfl⟩⟩

end Causeway
