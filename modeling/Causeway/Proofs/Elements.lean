import Causeway.Proofs.Counts
import Causeway.Proofs.PassConservation
/-!
# Elements of builtin sequences

What a pass over a builtin sequence finds at each index while nobody changes the sequence: the
objects a container holds, or the characters of a text, each made an object of its own. Whoever
makes the pass gives every element back, and that never takes anything else away.
-/
set_option autoImplicit false

namespace Causeway

open Act

variable {U : Type}

inductive Item where
  | held (h : Handle)
  | char (c : Char)
deriving DecidableEq

namespace Text

def offset (cs : List Char) (i : Nat) : Nat := ((cs.take i).map Char.utf8Size).sum

theorem charAt?_offset (cs : List Char) (i : Nat) : charAt? cs (offset cs i) = cs[i]? := by
  induction cs generalizing i with
  | nil => simp [charAt?]
  | cons c cs ih =>
    cases i with
    | zero => rfl
    | succ i =>
      have hpos := c.utf8Size_pos
      have hsum : offset (c :: cs) (i + 1) = c.utf8Size + offset cs i := by simp [offset]
      obtain ⟨m, hm⟩ : ∃ m, offset (c :: cs) (i + 1) = m + 1 := Nat.exists_eq_add_one.2 (by omega)
      rw [hm, charAt?, if_pos (by omega), List.getElem?_cons_succ, ← ih i]
      congr 1
      omega

theorem offset_succ {cs : List Char} {i : Nat} {c : Char} (hc : cs[i]? = some c) :
    offset cs (i + 1) = offset cs i + c.utf8Size := by
  rw [offset, List.take_add_one, hc]
  simp [offset]

end Text

namespace Payload

inductive Lists : Payload → List Item → Prop where
  | list (hs : List Handle) : Lists (.list hs) (hs.map .held)
  | set (hs : List Handle) : Lists (.set hs) (hs.map .held)
  | tuple (hs : List Handle) : Lists (.tuple (hs.map some)) (hs.map .held)
  | str (s : String) : Lists (.str s) (s.toList.map .char)

def offset : Payload → Nat → Nat
  | str s, i => Text.offset s.toList i
  | _, i => i

def stepTo (next : Nat) : Option Item → Step
  | some (.held h) => .item h next
  | some (.char c) => .char c next
  | Option.none => .stop

theorem Lists.stepAt {p : Payload} {xs : List Item} (hp : p.Lists xs) (i : Nat) :
    p.stepAt (p.offset i) = stepTo (p.offset (i + 1)) xs[i]? := by
  cases hp with
  | list hs | set hs | tuple hs =>
    simp only [Payload.stepAt, offset, List.getElem?_map]
    cases hs[i]? <;> rfl
  | str s =>
    simp only [Payload.stepAt, offset, List.getElem?_map, Text.charAt?_offset]
    cases hc : s.toList[i]? with
    | none => rfl
    | some c => exact congrArg (Step.char c) (Text.offset_succ hc).symm

theorem Lists.mem_units {p : Payload} {xs : List Item} {h : Handle} (hp : p.Lists xs)
    (hh : Item.held h ∈ xs) : h ∈ p.units := by
  cases hp with
  | list hs | set hs | tuple hs => simpa [units] using hh
  | str s => simp at hh

end Payload

/-- Objects that stay as they are in `start`, a sequence among them, and an iterator that is none of
them. -/
structure Backdrop (start : World U) (fixed : List Handle) (seq it : Handle) (body : Payload) :
    Prop where
  seq_mem : seq ∈ fixed
  body : start.heap.payload? seq = some body
  alive : ∀ k ∈ fixed, ∃ p, start.heap.payload? k = some p
  apart : it ∉ fixed

/-- The objects are still as they were, and the iterator stands at an offset of the sequence. -/
structure Standing (start : World U) (fixed : List Handle) (seq it : Handle) (offset : Nat)
    (w : World U) : Prop where
  same : ∀ k ∈ fixed, w.heap.payload? k = start.heap.payload? k
  iterator : w.heap.payload? it = some (.iterator seq offset)

/-- The object stands for the element. One made of a character is none of those that stay. -/
def Item.Is (fixed : List Handle) (w : World U) (e : Handle) : Item → Prop
  | .held h => e = h
  | .char c => w.heap.payload? e = some (.str (String.singleton c)) ∧ e ∉ fixed

section

variable {O : Ownership U} {env : Env U} {E : Multiset Handle} {start w w' w₁ : World U}
  {fixed : List Handle} {seq it e h : Handle} {body : Payload} {xs : List Item} {x : Item}
  {i n : Nat}

theorem Standing.of_payload (hs : Standing start fixed seq it n w)
    (hfixed : ∀ k ∈ fixed, w'.heap.payload? k = w.heap.payload? k)
    (hit : w'.heap.payload? it = w.heap.payload? it) : Standing start fixed seq it n w' :=
  ⟨fun k hk => (hfixed k hk).trans (hs.same k hk), hit.trans hs.iterator⟩

theorem Backdrop.found (hb : Backdrop start fixed seq it body)
    (hs : Standing start fixed seq it n w) : w.heap.payload? seq = some body :=
  (hs.same seq hb.seq_mem).trans hb.body

theorem Backdrop.found_of_mem {k : Handle} (hb : Backdrop start fixed seq it body)
    (hs : Standing start fixed seq it n w) (hk : k ∈ fixed) : ∃ q, w.heap.payload? k = some q := by
  obtain ⟨q, hq⟩ := hb.alive k hk
  exact ⟨q, (hs.same k hk).trans hq⟩

theorem moveTo_run {m : Nat} (hit : w.heap.payload? it = some (.iterator seq m)) (n : Nat) :
    moveTo it n env w =
      .done () { w with heap := w.heap.setPayload it (.iterator seq n) } := by
  simp only [moveTo, bind_run, Act.heap, hit]
  rfl

structure Advanced (seq it : Handle) (offset : Nat) (h : Handle) (w w' : World U) : Prop where
  inOrder : w'.heap.InOrder
  pending : w'.pending = w.pending
  counts : ∀ k, w'.heap.refcount k = w.heap.refcount k + Multiset.count k {h}
  iterator : w'.heap.payload? it = some (.iterator seq offset)
  kept : ∀ k q, k ≠ it → w.heap.payload? k = some q → w'.heap.payload? k = some q

theorem Taken.advanced (ht : Taken {h} w w₁) (hit : w.heap.payload? it = some (.iterator seq n))
    (m : Nat) : Advanced seq it m h w
      { w₁ with heap := w₁.heap.setPayload it (.iterator seq m) } := by
  have hmoved := Heap.setPayload_payload? (ht.kept it _ hit) (.iterator seq m)
  refine ⟨Heap.setPayload_inOrder ht.inOrder it _, ht.pending, fun k => ?_,
    (hmoved it).trans (if_pos rfl), fun k q hne hq => ?_⟩
  · exact (Heap.setPayload_refcount _ _ _ k).trans (ht.counts k)
  · exact (hmoved k).trans ((if_neg hne).trans (ht.kept k q hq))

/-- The object that stands for an element: the very one that the sequence holds, or a text that was
not there before. -/
def Item.Comes (w w' : World U) (h : Handle) : Item → Prop
  | .held k => h = k
  | .char c => w.heap.entryAt? h = none ∧ w'.heap.payload? h = some (.str (String.singleton c))

theorem iterNext_builtin (hit : w.heap.payload? it = some (.iterator seq n))
    (hseq : w.heap.payload? seq = some body) : iterNext it env w =
      (match body.stepAt n with
        | .item h next => do
          let h ← acquire h
          moveTo it next
          pure (some h)
        | .char c next => do
          let h ← alloc (.str (String.singleton c))
          moveTo it next
          pure (some h)
        | .stop => pure none : Act U (Option Handle)) env w := by
  have hiterator : iterNext it env w = sequenceNext it seq n env w := by
    simp only [iterNext, bind_run, Act.heap, hit]
  have hstep : (askPayload seq fun p => p.stepAt n : Act U (Option Step)) env w =
      .done (some (body.stepAt n)) w := by
    simp only [askPayload, Act.heap, hseq, Option.map_some]
  rewrite [hiterator, sequenceNext, bind_run, hstep]
  rfl

/-- Where there is an element left, the iterator yields it and moves on behind it. -/
theorem iterNext_item (ho : w.heap.InOrder)
    (hit : w.heap.payload? it = some (.iterator seq (body.offset i)))
    (hseq : w.heap.payload? seq = some body) (hlists : body.Lists xs) (hxi : xs[i]? = some x)
    (alive : ∀ k ∈ body.units, 0 < w.heap.refcount k) (env : Env U) :
    ∃ e w', iterNext it env w = .done (some e) w' ∧ x.Comes w w' e ∧
      Advanced seq it (body.offset (i + 1)) e w w' := by
  rw [iterNext_builtin hit hseq, hlists.stepAt, hxi]
  cases x with
  | held h =>
    have hmem := hlists.mem_units (List.mem_of_getElem? hxi)
    obtain ⟨w₁, hrun, htaken⟩ := acquire_taken ho (alive h hmem) env
    refine ⟨h, _, ?_, rfl, htaken.advanced hit _⟩
    simp only [Payload.stepTo, bind_run, hrun, moveTo_run (htaken.kept it _ hit)]
    rfl
  | char c =>
    obtain ⟨e, w₁, hrun, htaken, hfresh, hp⟩ := alloc_taken ho (.str (String.singleton c)) env
    have hne : e ≠ it := by
      rintro rfl
      rw [Heap.payload?, hfresh] at hit
      cases hit
    refine ⟨e, _, ?_, ⟨hfresh, ?_⟩, htaken.advanced hit _⟩
    · simp only [Payload.stepTo, bind_run, hrun, moveTo_run (htaken.kept it _ hit)]
      rfl
    · exact (Heap.setPayload_payload? (htaken.kept it _ hit) _ e).trans ((if_neg hne).trans hp)

/-- While there are elements the iterator yields them in order. -/
theorem iterNext_element (hb : Backdrop start fixed seq it body) (hlists : body.Lists xs)
    (hx : Exact O E w) (hs : Standing start fixed seq it (body.offset i) w)
    (hxi : xs[i]? = some x) :
    ∃ e w', iterNext it env w = .done (some e) w' ∧ w'.pending = w.pending ∧
      Standing start fixed seq it (body.offset (i + 1)) w' ∧ x.Is fixed w' e := by
  have alive (k : Handle) (hk : k ∈ body.units) : 0 < w.heap.refcount k :=
    (Heap.isAlive_iff_refcount_pos hx.inOrder k).1
      (hx.isAlive (Multiset.mem_add.2 (.inr (Heap.mem_units (hb.found hs) hk))))
  obtain ⟨e, w', hrun, hcomes, hadvanced⟩ :=
    iterNext_item hx.inOrder hs.iterator (hb.found hs) hlists hxi alive env
  refine ⟨e, w', hrun, hadvanced.pending, ⟨fun k hk => ?_, hadvanced.iterator⟩, ?_⟩
  · obtain ⟨q, hq⟩ := hb.found_of_mem hs hk
    have hne : k ≠ it := by
      rintro rfl
      exact hb.apart hk
    rw [hadvanced.kept k q hne hq, ← hq, hs.same k hk]
  · cases x with
    | held h => exact hcomes
    | char c =>
      refine ⟨hcomes.2, fun hk => ?_⟩
      obtain ⟨q, hq⟩ := hb.found_of_mem hs hk
      rw [Heap.payload?, hcomes.1] at hq
      cases hq

theorem iterNext_stop (hb : Backdrop start fixed seq it body) (hlists : body.Lists xs)
    (hs : Standing start fixed seq it (body.offset i) w) (hxi : xs[i]? = none) :
    iterNext it env w = .done none w := by
  rw [iterNext_builtin hs.iterator (hb.found hs), hlists.stepAt, hxi]
  rfl

theorem Standing.givenBack (hb : Backdrop start fixed seq it body)
    (hs : Standing start fixed seq it n w) (ho : w.heap.InOrder) (hback : GivenBack {e} w w')
    (hleft : e ∈ fixed ∨ e = it → 1 < w.heap.refcount e) : Standing start fixed seq it n w' where
  same k hk := by
    obtain ⟨q, hq⟩ := hb.found_of_mem hs hk
    rw [hback.still ho hq fun heq => hleft (.inl (heq ▸ hk)), ← hq, hs.same k hk]
  iterator := hback.still ho hs.iterator fun heq => hleft (.inr heq.symm)

/-- An element that is given back takes nothing away that stays: a container holds its own elements,
and a character was only made for the pass. -/
theorem releaseNow_element (hb : Backdrop start fixed seq it body) (hlists : body.Lists xs)
    (hx : Exact O ({e} + E) w) (hs : Standing start fixed seq it n w) (hmem : x ∈ xs)
    (his : x.Is fixed w e) (env : Env U) :
    ∃ w', releaseNow e env w = .done () w' ∧ w'.pending = w.pending ∧
      Standing start fixed seq it n w' := by
  have hcount := hx.counted e
  simp only [Multiset.count_add, Multiset.count_singleton_self] at hcount
  cases x with
  | held h =>
    obtain rfl : e = h := his
    have hunit := Multiset.one_le_count_iff_mem.2
      (Heap.mem_units (hb.found hs) (hlists.mem_units hmem))
    have hmany : 1 < w.heap.refcount e := by omega
    obtain ⟨w', hrun, hback⟩ := releaseNow_more hx.inOrder hmany env
    exact ⟨w', hrun, hback.pending, hs.givenBack hb hx.inOrder hback fun _ => hmany⟩
  | char c =>
    obtain ⟨htext, hapart⟩ := his
    obtain ⟨w', hrun, hback⟩ := releaseNow_item hx.inOrder (by omega) (.inr ⟨_, htext⟩) env
    refine ⟨w', hrun, hback.pending, hs.givenBack hb hx.inOrder hback ?_⟩
    rintro (hfixed | rfl)
    · exact absurd hfixed hapart
    · cases htext.symm.trans hs.iterator

/-- Iteration begins with a unit on the sequence and an iterator that owns it. -/
theorem Payload.Lists.getIter_run (hlists : body.Lists xs)
    (found : w.heap.payload? seq = some body) (hacquire : acquire seq env w = .done seq w₁)
    (halloc : alloc (.iterator seq 0) env w₁ = .done it w') :
    getIter seq env w = .done (some it) w' := by
  have hrun : getIter seq env w =
      (do some <$> alloc (.iterator (← acquire seq) 0) : Act U (Option Handle)) env w := by
    cases hlists <;> simp only [getIter, bind_run, Act.heap, found]
  rw [hrun, bind_run, hacquire]
  change (alloc (.iterator seq 0) >>= fun k => pure (some k)) env w₁ = _
  rw [bind_run, halloc]
  rfl

theorem Payload.Lists.offset_zero (hlists : body.Lists xs) : body.offset 0 = 0 := by
  cases hlists <;> rfl

/-- Iteration begins with an iterator that was not there before and stands at the beginning. -/
theorem getIter_begins (ho : w.heap.InOrder) (found : w.heap.payload? seq = some body)
    (hlists : body.Lists xs) (env : Env U) :
    ∃ it w', getIter seq env w = .done (some it) w' ∧ Taken ({seq} + {it}) w w' ∧
      w.heap.entryAt? it = none ∧
      w'.heap.payload? it = some (.iterator seq (body.offset 0)) := by
  obtain ⟨w₁, hacquire, htaken₁⟩ := acquire_taken ho (Heap.refcount_pos ho found) env
  obtain ⟨it, w₂, halloc, htaken₂, hfresh, hit⟩ := alloc_taken htaken₁.inOrder (.iterator seq 0) env
  refine ⟨it, w₂, hlists.getIter_run found hacquire halloc, htaken₁.trans htaken₂, ?_, ?_⟩
  · cases he : w.heap.entryAt? it with
    | none => rfl
    | some e =>
      have hkept := htaken₁.kept it e.payload (by rw [Heap.payload?, he]; rfl)
      rw [Heap.payload?, hfresh] at hkept
      cases hkept
  · rw [hlists.offset_zero, hit]

/-- What has a length is asked for it in two ways, and neither changes anything. -/
theorem lengths_run {p : Payload} {m : Nat} (found : w.heap.payload? h = some p)
    (hlength : p.length? = some m) (env : Env U) :
    lengthOf h env w = .done (some m) w ∧ lengthHint h env w = .done (some m) w := by
  constructor
  · simp only [lengthOf, askPayload, bind_run, Act.heap, found, Option.map_some, hlength]
    rfl
  · cases p with
    | native => cases hlength
    | _ =>
      simp only [lengthHint, bind_run, Act.heap, found, hlength]
      rfl

theorem Payload.Lists.length? (hlists : body.Lists xs) : body.length? = some xs.length := by
  cases hlists <;> simp [Payload.length?, String.length_toList]

/-- A pass over a builtin sequence is the same whether it asks for the length first or not, if there
is room for that many values. -/
theorem collectSized_builtin {α : Type} (p : Intake U α) (hlists : body.Lists xs)
    (room : xs.length * p.width < 2 ^ 63) (found : w.heap.payload? h = some body) (env : Env U) :
    View.collectSized p h env w = View.collect p h env w := by
  obtain ⟨-, hhint⟩ := lengths_run found hlists.length? env
  cases hreserve : w.settings.reserveFromHint with
  | false => exact View.collectSized_unasked hreserve
  | true =>
    refine View.collectSized_done hreserve hhint fun ⟨_, _, _, hcount, full⟩ => ?_
    rw [hhint] at hcount
    cases hcount
    exact absurd room (Nat.not_lt.2 full)

end

end Causeway
