import Causeway.Proofs.Decoding
import Causeway.Proofs.Walks
/-!
# Decoding by passes

A pass over a builtin sequence whose elements show trees. If every element decodes, the pass gives
their values; at the first that does not it stops with the index of that one, and nothing of what
was drawn before stays behind.
-/
set_option autoImplicit false

namespace Causeway

open Act

variable {U : Type} {env : Env U} {base : Handle → Option HeapEntry}
  {own : Multiset (Handle × HeapEntry)} {stakes : Multiset Stake} {heap : Heap} {w : World U}
  {h it : Handle} {i n : Nat} {τ : ValueTree} {ts : List ValueTree} {x seq : Stake}
  {L K : List Stake} {t : NativeType} {body : Payload} {items : List Item}

def Stake.Shows (base : Handle → Option HeapEntry) : Stake → ValueTree → Prop
  | .known h, τ => ValueTree.Shows (fun k => (base k).map (·.payload)) h τ
  | .text _ s, τ => τ = .str s

def Among (base : Handle → Option HeapEntry) (L : List Stake) (h : Handle) (τ : ValueTree) : Prop :=
  ∃ x ∈ L, x.handle = h ∧ x.Shows base τ

/-- The units that a decoded value owns, and that its objects show what they should. -/
structure Backs (base : Handle → Option HeapEntry) (t : NativeType) (v : t.Value) (d : t.Decoded)
    (L : List Stake) : Prop where
  units : L.map Stake.handle = t.units v
  images : t.Images (Among base L) v d

theorem Stake.Shows.exists_entry (hx : (Stake.known h).Shows base τ) : ∃ e, base h = some e := by
  obtain ⟨found, -⟩ := hx
  obtain ⟨e, he, -⟩ := Option.map_eq_some_iff.1 found
  exact ⟨e, he⟩

theorem Stake.Shows.stands (hx : x.Shows base τ) (hmem : x ∈ stakes) : x.Stands base stakes := by
  cases x with
  | known h => exact hx.exists_entry
  | text h s => exact hmem

theorem Backs.plain {v : t.Value} {d : t.Decoded} (hunits : t.units v = [])
    (himages : t.Images (Among base []) v d) : Backs base t v d [] :=
  ⟨hunits.symm, himages⟩

theorem Backs.images_of_subset {v : t.Value} {d : t.Decoded} (hb : Backs base t v d L)
    (hsub : L ⊆ K) : t.Images (Among base K) v d :=
  hb.images.mono t v d fun _ _ _ ⟨x, hx, h⟩ => ⟨x, hsub hx, h⟩

theorem Backs.snoc {vs : List t.Value} {ds : List t.Decoded} {v : t.Value} {d : t.Decoded}
    (hb : Backs base (.vec t) vs ds L) (hv : Backs base t v d K) :
    Backs base (.vec t) (vs ++ [v]) (ds ++ [d]) (L ++ K) where
  units := by
    have hunits : L.map Stake.handle = vs.flatMap t.units := hb.units
    change _ = (vs ++ [v]).flatMap t.units
    rw [List.map_append, hunits, hv.units, List.flatMap_append, List.flatMap_singleton]
  images := by
    have hfirst : List.Forall₂ (t.Images (Among base (L ++ K))) vs ds :=
      hb.images_of_subset (List.subset_append_left L K)
    exact List.rel_append hfirst
      (.cons (hv.images_of_subset (List.subset_append_right L K)) .nil)

def Decodes (base : Handle → Option HeapEntry) (own : Multiset (Handle × HeapEntry))
    (stakes : Multiset Stake) (t : NativeType) (decoded : Except Raised t.Decoded)
    (o : Option t.Value) (w : World U) : Prop :=
  match decoded with
  | .ok d => w.pending = none ∧
    ∃ v L, o = some v ∧ Backs base t v d L ∧ Staked base own (↑L + stakes) w.heap
  | .error e => w.pending = some e ∧ o = none ∧ Staked base own stakes w.heap

def Item.Shows (base : Handle → Option HeapEntry) : Item → ValueTree → Prop
  | .held h, τ => (Stake.known h).Shows base τ
  | .char c, τ => τ = .str (String.singleton c)

structure Sequence (base : Handle → Option HeapEntry) (seq : Stake) (body : Payload)
    (items : List Item) (ts : List ValueTree) : Prop where
  holds : seq.Holds base body
  lists : body.Lists items
  shows : List.Forall₂ (Item.Shows base) items ts

def ReadsAll (env : Env U) (base : Handle → Option HeapEntry) (t : NativeType)
    (ts : List ValueTree) : Prop :=
  ∀ τ ∈ ts, ∀ {x : Stake} {own stakes} {w : World U}, x.Shows base τ → x.Stands base stakes →
    Staked base own stakes w.heap → w.pending = none →
    (fromPeer t x.handle env w).Settles False (Decodes base own stakes t (t.decode τ))

def Passing (base : Handle → Option HeapEntry) (own : Multiset (Handle × HeapEntry))
    (seq : Stake) (it : Handle) (body : Payload) (n : Nat) (stakes : Multiset Stake)
    (heap : Heap) : Prop :=
  Staked base ({(it, ⟨1, .iterator seq.handle (body.offset n)⟩)} + own) (seq ::ₘ stakes) heap

theorem Passing.iterator (hs : Passing base own seq it body n stakes heap) :
    heap.payload? it = some (.iterator seq.handle (body.offset n)) :=
  (Staked.own_iff.1 hs).payload?_own (Multiset.mem_add.2 (.inl (Multiset.mem_singleton_self _)))

theorem Passing.moved (hs : Passing base own seq it body n stakes w.heap) (m : Nat) (env : Env U) :
    ∃ w', moveTo it (body.offset m) env w = .done () w' ∧ w'.pending = w.pending ∧
      Passing base own seq it body m stakes w'.heap :=
  ⟨_, moveTo_run hs.iterator _, rfl,
    Staked.own_iff.2 ((Staked.own_iff.1 hs).setPayload_own (.iterator seq.handle (body.offset m)))⟩

theorem Passing.release_iterator (deep : env.Deep 2)
    (hs : Passing base own seq it body n stakes w.heap) :
    ∃ w', release it env w = .done () w' ∧ w'.pending = w.pending ∧
      Staked base own stakes w'.heap :=
  release_whole_staked deep (p := .iterator seq.handle (body.offset n)) (by simp [Payload.Drops])
    [seq] rfl hs

namespace Sequence

theorem payload? (hq : Sequence base seq body items ts) (hs : Staked base own stakes heap)
    (hseq : seq.Stands base stakes) : heap.payload? seq.handle = some body :=
  hs.payload? hseq hq.holds

theorem exists_item (hq : Sequence base seq body items ts) (hτ : ts[i]? = some τ) :
    ∃ item, items[i]? = some item ∧ item.Shows base τ := by
  obtain ⟨hi, rfl⟩ := List.getElem?_eq_some_iff.1 hτ
  have hi' : i < items.length := hq.shows.length_eq ▸ hi
  exact ⟨items[i], List.getElem?_eq_getElem hi', List.Forall₂.get hq.shows hi' hi⟩

/-- Asking for an iterator gives a new one that stands at the beginning. -/
theorem getIter_staked (hq : Sequence base seq body items ts) (hs : Staked base own stakes w.heap)
    (hseq : seq.Stands base stakes) (env : Env U) :
    ∃ it w', getIter seq.handle env w = .done (some it) w' ∧ w'.pending = w.pending ∧
      Passing base own seq it body 0 stakes w'.heap := by
  obtain ⟨w₁, hacquire, hpending₁, hs₁⟩ := acquire_staked hs hseq env
  obtain ⟨it, w₂, halloc, hpending₂, ho₂⟩ := alloc_overlay hs₁ (.iterator seq.handle 0) env
  refine ⟨it, w₂, hq.lists.getIter_run (hq.payload? hs hseq) hacquire halloc,
    hpending₂.trans hpending₁, Staked.own_iff.2 ?_⟩
  rw [hq.lists.offset_zero]
  exact ho₂

/-- Iteration over the object would start, so a view of it is made, with a unit of its own. -/
theorem make_staked (hq : Sequence base seq body items ts) (deep : env.Deep 2)
    (hs : Staked base own stakes w.heap) (hseq : seq.Stands base stakes)
    (clear : w.pending = none) :
    ∃ w', View.make seq.handle env w = .done (.ok seq.handle) w' ∧ w'.pending = none ∧
      Staked base own (seq ::ₘ stakes) w'.heap := by
  have htake : Indicator.take env w = .done none w := by
    obtain ⟨heap, pending, settings, client⟩ := w
    cases clear
    rfl
  obtain ⟨it, w₁, hiter, -, hs₁⟩ := hq.getIter_staked hs hseq env
  obtain ⟨w₂, hrelease, -, hs₂⟩ := hs₁.release_iterator deep
  obtain ⟨w₃, hclear, clear₃, hheap₃⟩ := clear_run env w₂
  have hall : releaseAll (some it).toList env w₁ = .done () w₂ := by
    simp only [Option.toList_some, releaseAll, bind_run, onFault_done hrelease, pure_run]
  have hiterable : isIterable seq.handle env w = .done true w₃ := by
    unfold isIterable
    rw [bind_run, htake]
    dsimp only
    rw [bind_run, hiter]
    dsimp only
    rw [bind_run, hall]
    dsimp only
    rw [bind_run, hclear]
    rfl
  rw [← hheap₃] at hs₂
  obtain ⟨w₄, hacquire, hpending₄, hs₄⟩ := acquire_staked hs₂ hseq env
  refine ⟨w₄, ?_, hpending₄.trans clear₃, hs₄⟩
  rw [View.make, bind_run, hiterable]
  change (acquire seq.handle >>= fun h => pure (Except.ok h)) env w₃ = _
  rw [bind_run, hacquire]
  rfl

theorem iterNext_run (hq : Sequence base seq body items ts)
    (hs : Passing base own seq it body i stakes w.heap) (env : Env U) :
    iterNext it env w = (match Payload.stepTo (body.offset (i + 1)) items[i]? with
      | .item h next => do
        let h ← acquire h
        moveTo it next
        pure (some h)
      | .char c next => do
        let h ← alloc (.str (String.singleton c))
        moveTo it next
        pure (some h)
      | .stop => pure none : Act U (Option Handle)) env w := by
  have hbody := hq.payload? hs (hq.holds.stands (Multiset.mem_cons_self _ _))
  have hrun : iterNext it env w = _ := iterNext_builtin hs.iterator hbody
  rw [hq.lists.stepAt] at hrun
  exact hrun

/-- Before the element at an index the iterator yields an object that shows it. -/
theorem iterNext_staked (hq : Sequence base seq body items ts) (hτ : ts[i]? = some τ)
    (hs : Passing base own seq it body i stakes w.heap) (env : Env U) :
    ∃ x w', iterNext it env w = .done (some x.handle) w' ∧ w'.pending = w.pending ∧
      x.Shows base τ ∧ Passing base own seq it body (i + 1) (x ::ₘ stakes) w'.heap := by
  obtain ⟨item, hitem, hshows⟩ := hq.exists_item hτ
  rw [hq.iterNext_run hs, hitem]
  cases item with
  | held h =>
    obtain ⟨w₁, hrun, hpending₁, hs₁⟩ := acquire_staked hs (x := .known h) hshows.exists_entry env
    rw [Multiset.cons_swap] at hs₁
    obtain ⟨w₂, hmove, hpending₂, hs₂⟩ := Passing.moved hs₁ (i + 1) env
    refine ⟨.known h, w₂, ?_, hpending₂.trans hpending₁, hshows, hs₂⟩
    simp only [Payload.stepTo, bind_run, show acquire h env w = _ from hrun, hmove, pure_run]
  | char c =>
    obtain ⟨e, w₁, hrun, hpending₁, ho₁⟩ := alloc_overlay hs (.str (String.singleton c)) env
    have hs₁ := Staked.add_text ho₁
    rw [Multiset.cons_swap] at hs₁
    obtain ⟨w₂, hmove, hpending₂, hs₂⟩ := Passing.moved hs₁ (i + 1) env
    refine ⟨.text e (String.singleton c), w₂, ?_, hpending₂.trans hpending₁, hshows, hs₂⟩
    simp only [Payload.stepTo, bind_run, hrun, hmove, pure_run, Stake.handle]

theorem iterNext_stop (hq : Sequence base seq body items ts) (hτ : ts[i]? = none)
    (hs : Passing base own seq it body i stakes w.heap) (env : Env U) :
    iterNext it env w = .done none w := by
  have hend : items[i]? = none := by
    rw [List.getElem?_eq_none_iff] at hτ ⊢
    rwa [hq.shows.length_eq]
  rw [hq.iterNext_run hs, hend]
  rfl

end Sequence

/-- What a fetch at an index leaves, what it owns beside the iterator, and how many elements the
iterator has passed. -/
inductive Fetched (base : Handle → Option HeapEntry) (t : NativeType) (ts : List ValueTree)
    (it : Handle) (i : Nat) : Cursor t.Value × Option Failure → List Stake → Nat → Prop where
  | found {τ : ValueTree} {d : t.Decoded} {x : Stake} {v : t.Value} {L : List Stake}
      (item : ts[i]? = some τ) (decoded : t.decode τ = .ok d) (backs : Backs base t v d L) :
      Fetched base t ts it i (⟨it, some (x.handle, v), i, false, none⟩, none) (x :: L) (i + 1)
  | refused {τ : ValueTree} {e : Raised} (item : ts[i]? = some τ)
      (decoded : t.decode τ = .error e) :
      Fetched base t ts it i
        (⟨it, none, i, true, none⟩, some (.of (.elementConversion i))) [] (i + 1)
  | ended (item : ts[i]? = none) : Fetched base t ts it i (⟨it, none, i, true, none⟩, none) [] i

theorem fetch_staked (hq : Sequence base seq body items ts) (hr : ReadsAll env base t ts)
    (deep : env.Deep 1) (hs : Passing base own seq it body i stakes w.heap)
    (clear : w.pending = none) :
    (Cursor.fetch (builtinIntake t) ⟨it, none, i, false, none⟩ env w).Settles False fun r w' =>
      w'.pending = none ∧ ∃ K n, Fetched base t ts it i r K n ∧
        Passing base own seq it body n (↑K + stakes) w'.heap := by
  unfold Cursor.fetch
  simp only [Bool.false_eq_true, if_false]
  rw [bind_run]
  simp only [Indicator.isSet, clear, Option.isSome_none, Bool.false_eq_true, if_false]
  cases hτ : ts[i]? with
  | none =>
    rw [bind_run, hq.iterNext_stop hτ hs env]
    simp only [bind_run, Indicator.isSet, clear, Option.isSome_none, Bool.false_eq_true, if_false]
    exact ⟨clear, [], i, .ended hτ, by simpa using hs⟩
  | some τ =>
    obtain ⟨x, w₁, hnext, hpending₁, hshows, hs₁⟩ := hq.iterNext_staked hτ hs env
    rw [bind_run, hnext]
    have hconvert := hr τ (List.mem_of_getElem? hτ) hshows (hshows.stands (by simp)) hs₁
      (hpending₁.trans clear)
    refine (holding_settles [x.handle] hconvert).bind fun out w₂ _ h₂ => ?_
    obtain ⟨-, h₂⟩ := h₂
    cases hdecoded : t.decode τ with
    | ok d =>
      rw [hdecoded] at h₂
      obtain ⟨clear₂, v, L, rfl, hbacks, hs₂⟩ := h₂
      rw [bind_run]
      simp only [Indicator.isSet, clear₂, Option.isSome_none]
      refine ⟨clear₂, x :: L, i + 1, .found hτ hdecoded hbacks, hs₂.congr ?_⟩
      simp only [← Multiset.cons_coe, ← Multiset.singleton_add]
      abel
    | error e =>
      rw [hdecoded] at h₂
      obtain ⟨hpending₂, rfl, hs₂⟩ := h₂
      rw [Multiset.cons_swap] at hs₂
      obtain ⟨w₃, hrelease, -, hs₃⟩ := release_staked deep hs₂
      obtain ⟨w₄, hclear, clear₄, hheap₄⟩ := clear_run env w₃
      rw [bind_run]
      simp only [Indicator.isSet, bind_run, holding, onFault, pure_run, hrelease, hclear]
      refine ⟨clear₄, [], i + 1, .refused hτ hdecoded, ?_⟩
      rw [hheap₄]
      simpa [Passing] using hs₃

theorem drop_staked (deep : env.Deep 2) {c : Cursor t.Value} (hcurrent : c.current = none)
    (hs : Passing base own seq c.iterator body n stakes w.heap) :
    ∃ w', c.drop (builtinIntake t) env w = .done () w' ∧ w'.pending = w.pending ∧
      Staked base own stakes w'.heap := by
  obtain ⟨w', hrun, hpending, hs'⟩ := hs.release_iterator deep
  refine ⟨w', ?_, hpending, hs'⟩
  simp only [Cursor.drop, Cursor.discardCurrent, hcurrent, bind_run, holding, onFault, pure_run]
  exact hrun

/-- Drawing the cached value gives its element up, and looks one element further. -/
theorem next_staked (hq : Sequence base seq body items ts) (hr : ReadsAll env base t ts)
    (deep : env.Deep 1) {v : t.Value}
    (hs : Passing base own seq it body (i + 1) (x ::ₘ stakes) w.heap) (clear : w.pending = none) :
    (Cursor.next (builtinIntake t) ⟨it, some (x.handle, v), i, false, none⟩ env w).Settles False
      fun r w' => w'.pending = none ∧ ∃ r' K n, r = ({ r'.1 with pending := r'.2 }, some (.ok v)) ∧
        Fetched base t ts it (i + 1) r' K n ∧
        Passing base own seq it body n (↑K + stakes) w'.heap := by
  rw [Passing, Multiset.cons_swap] at hs
  obtain ⟨w₁, hrelease, hpending₁, hs₁⟩ := release_staked deep hs
  have hheld : holding (t.units v) (release x.handle) env w = .done () w₁ := onFault_done hrelease
  have hfetch := fetch_staked hq hr deep hs₁ (hpending₁.trans clear)
  have hrun : Cursor.next (builtinIntake t) ⟨it, some (x.handle, v), i, false, none⟩ env w =
      (holding (t.units v) (Cursor.fetch (builtinIntake t) ⟨it, none, i + 1, false, none⟩) >>=
        fun r => pure ({ r.1 with pending := r.2 }, some (.ok v))) env w₁ := by
    simp only [Cursor.next, builtinIntake, bind_run, hheld]
  rw [hrun]
  refine (holding_settles _ hfetch).bind fun r w₂ _ h₂ => ?_
  obtain ⟨-, clear₂, K, n, hfetched, hs₂⟩ := h₂
  exact ⟨clear₂, r, K, n, rfl, hfetched, hs₂⟩

def Draws (base : Handle → Option HeapEntry) (own : Multiset (Handle × HeapEntry))
    (stakes : Multiset Stake) (t : NativeType) (decoded : Except Nat (List t.Decoded))
    (r : Except Failure (List t.Value)) (w : World U) : Prop :=
  w.pending = none ∧
  match decoded with
  | .ok ds => ∃ vs L, r = .ok vs ∧ Backs base (.vec t) vs ds L ∧ Staked base own (↑L + stakes) w.heap
  | .error i => r = .error (.of (.elementConversion i)) ∧ Staked base own stakes w.heap

/-- Between two draws: the values of the first `i` elements are there, and `left` are still to be
looked at. -/
structure Drawing (base : Handle → Option HeapEntry) (own : Multiset (Handle × HeapEntry))
    (stakes : Multiset Stake) (t : NativeType) (ts : List ValueTree) (seq : Stake)
    (it : Handle) (body : Payload) (left : Nat) (c : Cursor t.Value) (out : List t.Value)
    (w : World U) : Prop where
  clear : w.pending = none
  place : ∃ i r K n L, ∃ ds : List t.Decoded, i + left = ts.length ∧ Fetched base t ts it i r K n ∧
    c = { r.1 with pending := r.2 } ∧ Backs base (.vec t) out ds L ∧
    NativeType.decodeFrom t.decode 0 ts =
      (NativeType.decodeFrom t.decode i (ts.drop i)).map (ds ++ ·) ∧
    Passing base own seq it body n (↑K + (↑L + stakes)) w.heap

theorem decodeFrom_end (f : ValueTree → Except Raised t.Decoded) (hτ : ts[i]? = none) :
    NativeType.decodeFrom f i (ts.drop i) = .ok [] := by
  rw [List.drop_eq_nil_of_le (List.getElem?_eq_none_iff.1 hτ)]
  rfl

theorem decodeFrom_step (f : ValueTree → Except Raised t.Decoded) (hτ : ts[i]? = some τ) :
    NativeType.decodeFrom f i (ts.drop i) =
      match f τ with
      | .error _ => .error i
      | .ok d => (NativeType.decodeFrom f (i + 1) (ts.drop (i + 1))).map (d :: ·) := by
  obtain ⟨hi, rfl⟩ := List.getElem?_eq_some_iff.1 hτ
  rw [List.drop_eq_getElem_cons hi, NativeType.decodeFrom]
  cases f ts[i] <;> rfl

theorem drawFrom_staked (hq : Sequence base seq body items ts) (hr : ReadsAll env base t ts)
    (deep : env.Deep 2) {c : Cursor t.Value}
    (hstart : Drawing base own stakes t ts seq it body ts.length c [] w)
    (budget : ts.length < env.budget) :
    (View.drawFrom (builtinIntake t) c #[] env w).Settles False
      (Draws base own stakes t (NativeType.decodeFrom t.decode 0 ts)) := by
  let I (m : Nat) (s : Cursor t.Value × Array t.Value) (w : World U) : Prop :=
    Drawing base own stakes t ts seq it body m s.1 s.2.toList w
  refine loopFor_settles (I := I) (m := ts.length) ?_ budget hstart
  rintro m ⟨c, out⟩ w ⟨clear, i, r, K, n, L, ds, hm, hfetched, hc, hout, hall, hs⟩
  cases hfetched with
  | @found τ d x v L' item decoded backs =>
    obtain ⟨hi, -⟩ := List.getElem?_eq_some_iff.1 item
    have hs' : Passing base own seq it body (i + 1) (x ::ₘ (↑L' + (↑L + stakes))) w.heap := by
      rwa [← Multiset.cons_coe, Multiset.cons_add] at hs
    have hnext := next_staked (v := v) hq hr (deep.of_le (by omega)) hs' clear
    subst hc
    refine (onFault_settles _ hnext).bind fun r w₁ _ h₁ => ?_
    obtain ⟨clear₁, r', K', n', rfl, hfetched', hs₁⟩ := h₁
    refine ⟨m - 1, by omega, clear₁, i + 1, r', K', n', L ++ L', ds ++ [d], by omega, hfetched', rfl,
      ?_, ?_, ?_⟩
    · rw [Array.toList_push]
      exact hout.snoc backs
    · rw [hall, decodeFrom_step t.decode item, decoded]
      cases NativeType.decodeFrom t.decode (i + 1) (ts.drop (i + 1)) <;> simp [Except.map]
    · refine hs₁.congr ?_
      simp only [← Multiset.coe_add]
      abel_nf
  | @refused τ e item decoded =>
    subst hc
    have hunits : out.toList.flatMap t.units = L.map Stake.handle := hout.units.symm
    have hs' : Passing base own seq it body (i + 1) (↑L + stakes) w.heap := by simpa using hs
    obtain ⟨w₁, hdrop, hpending₁, hs₁⟩ := drop_staked (c := ⟨it, none, i, true, none⟩) deep rfl hs'
    obtain ⟨w₂, hrelease, hpending₂, hs₂⟩ := releaseAll_staked L (deep.of_le (by omega)) hs₁
    simp only [Cursor.next, builtinIntake, bind_run, onFault, pure_run, holding, hunits] at hdrop ⊢
    rw [hdrop]
    dsimp only
    rw [hrelease]
    refine ⟨hpending₂.trans (hpending₁.trans clear), ?_⟩
    rw [hall, decodeFrom_step t.decode item, decoded]
    exact ⟨rfl, hs₂⟩
  | ended item =>
    subst hc
    have hs' : Passing base own seq it body i (↑L + stakes) w.heap := by simpa using hs
    obtain ⟨w₁, hdrop, hpending₁, hs₁⟩ := drop_staked (c := ⟨it, none, i, true, none⟩) deep rfl hs'
    simp only [Cursor.next, builtinIntake, bind_run, onFault, pure_run, holding] at hdrop ⊢
    rw [hdrop]
    refine ⟨hpending₁.trans clear, ?_⟩
    rw [hall, decodeFrom_end t.decode item]
    exact ⟨out.toList, L, rfl, by simpa using hout, hs₁⟩

theorem begin_staked (hq : Sequence base seq body items ts) (hr : ReadsAll env base t ts)
    (deep : env.Deep 2) (hs : Staked base own stakes w.heap) (hseq : seq.Stands base stakes)
    (clear : w.pending = none) :
    (View.begin (builtinIntake t) seq.handle env w).Settles False fun r w' =>
      match r with
      | .error f => w'.pending = none ∧ f = .of (.elementConversion 0) ∧
        NativeType.decodeFrom t.decode 0 ts = .error 0 ∧ Staked base own stakes w'.heap
      | .ok c => ∃ it, Drawing base own stakes t ts seq it body ts.length c [] w' := by
  obtain ⟨it, w₁, hiter, hpending₁, hs₁⟩ := hq.getIter_staked hs hseq env
  rw [View.begin, bind_run, hiter]
  simp only [typeNameOf, Act.heap, bind_run, Act.emit]
  let w₂ : World U :=
    { w₁ with client := env.observe (.iterationStarted (w₁.heap.typeName seq.handle)) w₁.client }
  have hfetch := fetch_staked (w := w₂) hq hr (deep.of_le (by omega)) hs₁ (hpending₁.trans clear)
  refine (holding_settles [it] hfetch).bind fun r w₃ _ h₃ => ?_
  obtain ⟨-, clear₃, K, m, hfetched, hs₃⟩ := h₃
  have hdrawing : Drawing base own stakes t ts seq it body ts.length
      { r.1 with pending := r.2 } [] w₃ := by
    refine ⟨clear₃, 0, r, K, m, [], [], by omega, hfetched, rfl, ⟨rfl, .nil⟩, ?_, by simpa using hs₃⟩
    rw [List.drop_zero]
    cases NativeType.decodeFrom t.decode 0 ts <;> rfl
  cases hfetched with
  | found item decoded backs => exact ⟨it, hdrawing⟩
  | ended item => exact ⟨it, hdrawing⟩
  | refused item decoded =>
    have hs₃' : Passing base own seq it body (0 + 1) stakes w₃.heap := by simpa using hs₃
    obtain ⟨w₄, hdrop, hpending₄, hs₄⟩ := drop_staked (t := t)
      (c := ⟨it, none, 0, true, none⟩) deep rfl hs₃'
    dsimp only
    rw [bind_run, hdrop]
    have hdecoded := decodeFrom_step t.decode item
    rw [decoded, List.drop_zero] at hdecoded
    exact ⟨hpending₄.trans clear₃, rfl, hdecoded, hs₄⟩

theorem collect_staked (hq : Sequence base seq body items ts) (hr : ReadsAll env base t ts)
    (deep : env.Deep 2) (budget : ts.length < env.budget) (hs : Staked base own stakes w.heap)
    (hseq : seq.Stands base stakes) (clear : w.pending = none) :
    (View.collect (builtinIntake t) seq.handle env w).Settles False
      (Draws base own stakes t (NativeType.decodeFrom t.decode 0 ts)) := by
  refine (begin_staked hq hr deep hs hseq clear).bind fun r w₁ _ h₁ => ?_
  cases r with
  | error f =>
    obtain ⟨clear₁, rfl, hdecoded, hs₁⟩ := h₁
    rw [hdecoded]
    exact ⟨clear₁, rfl, hs₁⟩
  | ok c =>
    obtain ⟨it, hdrawing⟩ := h₁
    exact drawFrom_staked hq hr deep hdrawing budget

/-- A view is made of the object, a pass over it gives what the elements decode to, and the view is
given up. -/
theorem collectObject_staked (hq : Sequence base seq body items ts) (hr : ReadsAll env base t ts)
    (deep : env.Deep 2) (budget : ts.length < env.budget) (room : ts.length * t.width < 2 ^ 63)
    (hs : Staked base own stakes w.heap) (hseq : seq.Stands base stakes) (clear : w.pending = none) :
    (collectObject (builtinIntake t) seq.handle env w).Settles False
      (Draws base own stakes t (NativeType.decodeFrom t.decode 0 ts)) := by
  obtain ⟨w₁, hmake, clear₁, hs₁⟩ := hq.make_staked deep hs hseq clear
  have hseq₁ : seq.Stands base (seq ::ₘ stakes) := hq.holds.stands (Multiset.mem_cons_self _ _)
  have hcollect := collect_staked hq hr deep budget hs₁ hseq₁ clear₁
  rw [← collectSized_builtin (builtinIntake t) hq.lists (by rwa [hq.shows.length_eq])
    (hq.payload? hs₁ hseq₁) env] at hcollect
  rw [collectObject, bind_run, hmake]
  refine (holding_settles [seq.handle] hcollect).bind fun r w₂ _ h₂ => ?_
  obtain ⟨-, clear₂, h₂⟩ := h₂
  have hdeep₁ : env.Deep 1 := deep.of_le (by omega)
  cases hdecoded : NativeType.decodeFrom t.decode 0 ts with
  | ok ds =>
    rw [hdecoded] at h₂
    obtain ⟨vs, L, rfl, hbacks, hs₂⟩ := h₂
    rw [Multiset.add_cons] at hs₂
    obtain ⟨w₃, hrelease, hpending₃, hs₃⟩ := release_staked hdeep₁ hs₂
    rw [bind_run, hrelease]
    exact ⟨hpending₃.trans clear₂, vs, L, rfl, hbacks, hs₃⟩
  | error i =>
    rw [hdecoded] at h₂
    obtain ⟨rfl, hs₂⟩ := h₂
    obtain ⟨w₃, hrelease, hpending₃, hs₃⟩ := release_staked hdeep₁ hs₂
    rw [bind_run, hrelease]
    exact ⟨hpending₃.trans clear₂, rfl, hs₃⟩

end Causeway
