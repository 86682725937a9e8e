import Causeway.Proofs.TupleReaders
import Causeway.Proofs.Walks
/-!
# Iteration over builtin sequences

What iteration over a list, a set, a tuple without gaps or a text comes to while the sequence stays
as it is: every item once and in order, then the end. To all other objects nothing happens but that
references are taken and given back, so in the end every count is what it was. The items may be
given back at any time and in any order, the iterator before or after them, and others may go on
meanwhile, with the items too.
-/
set_option autoImplicit false

namespace Causeway

open Act

variable {U : Type} {env : Env U} {start w w' : World U} {V : Multiset Handle}
  {seq it h k : Handle} {body q : Payload} {xs : List Item} {x : Item} {n : Nat}

theorem release_item (deep : env.Deep 1) (ho : w.heap.InOrder) (halive : 0 < w.heap.refcount h)
    (hitem : 1 < w.heap.refcount h ∨ ∃ t, w.heap.payload? h = some (.str t)) :
    ∃ w', release h env w = .done () w' ∧ GivenBack {h} w w' := by
  obtain ⟨below, -, hrelease⟩ := deep
  rw [release, hrelease]
  exact releaseNow_item ho halive hitem below

/-- An iterator goes, and with it its reference to the sequence. -/
theorem release_iterator (deep : env.Deep 2) (ho : w.heap.InOrder)
    (hlast : w.heap.refcount it = 1) (hit : w.heap.payload? it = some (.iterator seq n))
    (hne : it ≠ seq) (hseq : 1 < w.heap.refcount seq) :
    ∃ w', release it env w = .done () w' ∧ GivenBack ({it} + {seq}) w w' := by
  obtain ⟨below, hbelow, hrelease⟩ := deep
  obtain ⟨w₁, hfirst, hback₁⟩ := releaseNow_last ho hlast hit (by simp [Payload.Drops]) below
  have hseq₁ : 1 < w₁.heap.refcount seq := by
    have hcount := hback₁.counts seq
    rw [Multiset.count_singleton, if_neg hne.symm] at hcount
    omega
  obtain ⟨w₂, hsecond, hback₂⟩ := release_item hbelow hback₁.inOrder (by omega) (.inl hseq₁)
  refine ⟨w₂, ?_, hback₁.trans hback₂⟩
  rw [release, hrelease, hfirst]
  simp only [Payload.units, releaseAll, bind_run, onFault_done hsecond]
  rfl

structure Iteration where
  /-- The objects that were yielded, in order, and what each held then. -/
  given : List (Handle × Payload)
  /-- The references to them that were not given back. -/
  held : Multiset Handle
  /-- The iterator was not given back. -/
  isOpen : Bool
  /-- What everybody else did to the counts in the meantime. -/
  others : Handle → ℤ

namespace Iteration

def begun : Iteration := ⟨[], 0, true, 0⟩

def next (s : Iteration) (h : Handle) (q : Payload) : Iteration :=
  { s with given := s.given ++ [(h, q)], held := {h} + s.held }

def giveBack (s : Iteration) (h : Handle) : Iteration := { s with held := s.held.erase h }

def close (s : Iteration) : Iteration := { s with isOpen := false }

def aside (s : Iteration) (w w' : World U) : Iteration :=
  { s with others := fun k => s.others k + (w'.heap.refcount k - w.heap.refcount k) }

/-- The references there are because of the iteration: to the items, to the iterator, and the
iterator's own to the sequence. -/
def units (seq it : Handle) (s : Iteration) : Multiset Handle :=
  s.held + if s.isOpen then {it} + {seq} else 0

def text (s : Iteration) : String := String.join (s.given.filterMap fun g => g.2.asText?)

end Iteration

def Counted (units : Multiset Handle) (w : World U) : Prop :=
  ∀ k, units.count k ≤ w.heap.refcount k

/-- Where the ledger is exact this holds of a sequence and whoever has a reference to it. -/
theorem Exact.sequence_counted {O : Ownership U} {E : Multiset Handle} (hx : Exact O ({seq} + E) w)
    (found : w.heap.payload? seq = some body) : Counted (seq ::ₘ ↑body.units) w := fun k => by
  have hle := Multiset.le_iff_count.1 (Heap.units_le found) k
  rw [hx.counted, Multiset.count_cons]
  simp only [Multiset.count_add, Multiset.count_singleton]
  omega

/-- What others may do meanwhile. They leave the sequence as it is and what only the iteration has
made, and give back no reference that is not theirs: not the one of whoever iterates to the
sequence, nor those of the sequence, nor those of the iteration. -/
structure Aside (seq : Handle) (body : Payload) (units : Multiset Handle) (w w' : World U) :
    Prop where
  inOrder : w'.heap.InOrder
  sequence : w'.heap.payload? seq = w.heap.payload? seq
  made : ∀ k ∈ units, k ∉ body.units → w'.heap.payload? k = w.heap.payload? k
  counted : Counted (seq ::ₘ ↑body.units + units) w'

/-- An iteration up to some point: `it` was made to iterate over `seq` in the world `start`, which
held `body`, and then items were asked for and given back, and the iterator was, while others went
on. -/
inductive Iterated (start : World U) (seq : Handle) (body : Payload) (it : Handle) :
    Iteration → World U → Prop where
  | begun {env : Env U} {w : World U} (run : getIter seq env start = .done (some it) w) :
      Iterated start seq body it .begun w
  | next {env : Env U} {s : Iteration} {w w' : World U} {h : Handle} {q : Payload}
      (before : Iterated start seq body it s w) (isOpen : s.isOpen = true)
      (run : iterNext it env w = .done (some h) w') (found : w'.heap.payload? h = some q) :
      Iterated start seq body it (s.next h q) w'
  | giveBack {env : Env U} {s : Iteration} {w w' : World U} {h : Handle}
      (before : Iterated start seq body it s w) (held : h ∈ s.held) (deep : env.Deep 1)
      (run : release h env w = .done () w') : Iterated start seq body it (s.giveBack h) w'
  | close {env : Env U} {s : Iteration} {w w' : World U}
      (before : Iterated start seq body it s w) (isOpen : s.isOpen = true)
      (last : w.heap.refcount it = 1) (deep : env.Deep 2)
      (run : release it env w = .done () w') : Iterated start seq body it s.close w'
  | aside {s : Iteration} {w w' : World U} (before : Iterated start seq body it s w)
      (aside : Aside seq body (s.units seq it) w w') :
      Iterated start seq body it (s.aside w w') w'

def Item.Gives : Item → Handle × Payload → Prop
  | .held h, g => g.1 = h
  | .char c, g => g.2 = .str (String.singleton c)

/-- What can be counted on at any point of an iteration. -/
structure Iteration.Faithful (start : World U) (seq : Handle) (body : Payload) (it : Handle)
    (xs : List Item) (s : Iteration) (w : World U) : Prop where
  atMost : s.given.length ≤ xs.length
  /-- What was yielded is what the sequence begins with. -/
  items : List.Forall₂ Item.Gives (xs.take s.given.length) s.given
  /-- Put together, the items of a text are what it begins with, and in the end all of it. -/
  text : ∀ t, body = .str t →
    (∃ rest, t = s.text ++ rest) ∧ (s.given.length = xs.length → s.text = t)
  /-- The iterator counts the items of a container. In a text it stands between two characters,
  behind those that were yielded. -/
  position : s.isOpen = true → ∃ offset, w.heap.payload? it = some (.iterator seq offset) ∧
    match body with
    | .str t => offset = s.text.utf8ByteSize ∧ (⟨offset⟩ : String.Pos.Raw).IsValid t
    | _ => offset = s.given.length
  next : s.isOpen = true → ∀ x, xs[s.given.length]? = some x → ∀ env, ∃ h w',
    iterNext it env w = .done (some h) w' ∧ x.Comes w w' h ∧ w'.pending = w.pending ∧
      ∀ k, w'.heap.refcount k = w.heap.refcount k + Multiset.count k {h}
  stop : s.isOpen = true → s.given.length = xs.length → ∀ env, iterNext it env w = .done none w
  /-- As many items as there are left are yielded, and then the end. -/
  ends : s.isOpen = true → ∀ env, ∃ hs w', HandsOut env it w hs w' ∧
    s.given.length + hs.length = xs.length ∧ w'.pending = w.pending
  /-- The iterator is held once, unless others hold it too. -/
  sole : s.isOpen = true → (w.heap.refcount it : ℤ) = 1 + s.others it
  giveBack : ∀ h ∈ s.held, ∀ env : Env U, env.Deep 1 → ∃ w', release h env w = .done () w' ∧
    w'.pending = w.pending
  close : s.isOpen = true → w.heap.refcount it = 1 → ∀ env : Env U, env.Deep 2 → ∃ w',
    release it env w = .done () w' ∧ w'.pending = w.pending
  counts : ∀ k, (w.heap.refcount k : ℤ) =
    start.heap.refcount k + s.others k + (s.units seq it).count k
  /-- With everything given back all counts are as they were, but for what others did. -/
  restored : s.held = 0 → s.isOpen = false → s.others = 0 →
    ∀ k, w.heap.refcount k = start.heap.refcount k
  lengths : ∀ env, lengthOf seq env w = .done (some xs.length) w ∧
    lengthHint seq env w = .done (some xs.length) w

/-- The invariant: the iterator stands where what was yielded ends, and the references are those of
the start, of the iteration and of all others. -/
structure Iteration.Holds (start : World U) (seq : Handle) (body : Payload) (it : Handle)
    (xs : List Item) (s : Iteration) (w : World U) : Prop where
  inOrder : w.heap.InOrder
  sequence : w.heap.payload? seq = some body
  apart : it ≠ seq ∧ it ∉ body.units
  fresh : start.heap.refcount it = 0
  position : s.isOpen = true →
    w.heap.payload? it = some (.iterator seq (body.offset s.given.length))
  counted : Counted (seq ::ₘ ↑body.units + s.units seq it) w
  account : ∀ k, (w.heap.refcount k : ℤ) =
    start.heap.refcount k + s.others k + (s.units seq it).count k
  given : List.Forall₂ Item.Gives (xs.take s.given.length) s.given
  held : ∀ h ∈ s.held, h ∈ body.units ∨ ∃ t, w.heap.payload? h = some (.str t)

namespace Iteration

variable {s s' : Iteration}

theorem units_next (seq it : Handle) (s : Iteration) (h : Handle) (q : Payload) :
    (s.next h q).units seq it = {h} + s.units seq it := add_assoc _ _ _

theorem units_giveBack (seq it : Handle) (hmem : h ∈ s.held) :
    s.units seq it = {h} + (s.giveBack h).units seq it := by
  change _ = {h} + (s.held.erase h + _)
  rw [← add_assoc, Multiset.singleton_add, Multiset.cons_erase hmem]
  rfl

theorem units_close (seq it : Handle) (hopen : s.isOpen = true) :
    s.units seq it = ({it} + {seq}) + s.close.units seq it := by
  unfold units close
  rw [if_pos hopen, if_neg Bool.false_ne_true, add_zero, add_comm]

theorem it_mem_units (hopen : s.isOpen = true) : it ∈ s.units seq it := by
  simp [units, hopen]

theorem held_subset (hmem : h ∈ s.held) : h ∈ s.units seq it := by
  simp [units, hmem]

namespace Holds

variable (hs : s.Holds start seq body it xs w)
include hs

theorem length_le : s.given.length ≤ xs.length := by
  have hlength := hs.given.length_eq
  rw [List.length_take] at hlength
  omega

theorem alive (hk : k ∈ seq ::ₘ ↑body.units + s.units seq it) : 0 < w.heap.refcount k :=
  (Multiset.one_le_count_iff_mem.2 hk).trans (hs.counted k)

theorem iterNext_item (hlists : body.Lists xs) (hopen : s.isOpen = true)
    (hx : xs[s.given.length]? = some x) (env : Env U) :
    ∃ h w', iterNext it env w = .done (some h) w' ∧ x.Comes w w' h ∧
      Advanced seq it (body.offset (s.given.length + 1)) h w w' :=
  Causeway.iterNext_item hs.inOrder (hs.position hopen) hs.sequence hlists hx
    (fun _ hk => hs.alive (by simp [hk])) env

/-- Behind the last item there is the end, as often as it is asked for. -/
theorem iterNext_end (hlists : body.Lists xs) (hopen : s.isOpen = true)
    (hlast : s.given.length = xs.length) (env : Env U) : iterNext it env w = .done none w := by
  rw [iterNext_builtin (hs.position hopen) hs.sequence, hlists.stepAt,
    List.getElem?_eq_none hlast.ge]
  rfl

theorem next (hlists : body.Lists xs) (hopen : s.isOpen = true)
    (hx : xs[s.given.length]? = some x) (hcomes : x.Comes w w' h)
    (hadvanced : Advanced seq it (body.offset (s.given.length + 1)) h w w')
    (hq : w'.heap.payload? h = some q) : (s.next h q).Holds start seq body it xs w' where
  inOrder := hadvanced.inOrder
  sequence := hadvanced.kept seq _ hs.apart.1.symm hs.sequence
  apart := hs.apart
  fresh := hs.fresh
  position _ := by
    simpa [Iteration.next] using hadvanced.iterator
  counted k := by
    have hcount := hs.counted k
    rw [units_next, hadvanced.counts]
    simp only [Multiset.count_add] at hcount ⊢
    omega
  account k := by
    have hcount := hs.account k
    rw [units_next, hadvanced.counts, Multiset.count_add]
    change _ = _ + s.others k + _
    omega
  given := by
    have hgives : x.Gives (h, q) := by
      cases x with
      | held k => exact hcomes
      | char c => exact Option.some.inj (hq.symm.trans hcomes.2)
    have hlength : (s.next h q).given.length = s.given.length + 1 := List.length_append
    rw [hlength, List.take_add_one, hx]
    exact List.rel_append hs.given (.cons hgives .nil)
  held k hk := by
    obtain hk | hk := Multiset.mem_add.1 hk
    · obtain rfl := Multiset.mem_singleton.1 hk
      cases x with
      | held h =>
        obtain rfl : k = h := hcomes
        exact .inl (hlists.mem_units (List.mem_of_getElem? hx))
      | char c => exact .inr ⟨_, hcomes.2⟩
    · refine (hs.held k hk).imp_right fun ⟨t, ht⟩ => ⟨t, hadvanced.kept k _ ?_ ht⟩
      rintro rfl
      cases ht.symm.trans (hs.position hopen)

/-- Giving back references that there are because of the iteration. -/
theorem givenBack (hback : GivenBack V w w') (hgiven : s'.given = s.given)
    (hothers : s'.others = s.others) (hopen : s'.isOpen = true → s.isOpen = true)
    (hheld : s'.held ⊆ s.held) (hunits : s.units seq it = V + s'.units seq it) :
    s'.Holds start seq body it xs w' := by
  have hcounted : Counted (seq ::ₘ ↑body.units + s'.units seq it) w' := fun k => by
    have hcount := hs.counted k
    have hcounts := hback.counts k
    rw [hunits] at hcount
    simp only [Multiset.count_add] at hcount ⊢
    omega
  have hkept (k : Handle) (hk : k ∈ seq ::ₘ ↑body.units + s'.units seq it) :
      w'.heap.payload? k = w.heap.payload? k :=
    hback.kept k ((Multiset.one_le_count_iff_mem.2 hk).trans (hcounted k))
  refine ⟨hback.inOrder, (hkept seq (by simp)).trans hs.sequence, hs.apart, hs.fresh, fun ho => ?_,
    hcounted, fun k => ?_, hgiven ▸ hs.given, fun k hk => ?_⟩
  · rw [hgiven, hkept it (Multiset.mem_add.2 (.inr (it_mem_units ho)))]
    exact hs.position (hopen ho)
  · have hcount := hs.account k
    have hcounts := hback.counts k
    rw [hunits, Multiset.count_add] at hcount
    rw [hothers]
    omega
  · rw [hkept k (Multiset.mem_add.2 (.inr (held_subset hk)))]
    exact hs.held k (hheld hk)

theorem aside (haside : Aside seq body (s.units seq it) w w') :
    (s.aside w w').Holds start seq body it xs w' where
  inOrder := haside.inOrder
  sequence := haside.sequence.trans hs.sequence
  apart := hs.apart
  fresh := hs.fresh
  position hopen := by
    rw [haside.made it (it_mem_units hopen) hs.apart.2]
    exact hs.position hopen
  counted := haside.counted
  account k := by
    have hcount := hs.account k
    change _ = _ + (s.others k + _) + ((s.units seq it).count k : ℤ)
    omega
  given := hs.given
  held k hk := by
    by_cases hmem : k ∈ body.units
    · exact .inl hmem
    · rw [haside.made k (held_subset hk) hmem]
      exact hs.held k hk

theorem sole (hopen : s.isOpen = true) : (w.heap.refcount it : ℤ) = 1 + s.others it := by
  have hnot : it ∉ s.held := fun hmem => (hs.held it hmem).elim hs.apart.2 fun ⟨t, ht⟩ => by
    cases ht.symm.trans (hs.position hopen)
  have hunits : (s.units seq it).count it = 1 := by
    simp [units, hopen, Multiset.count_eq_zero_of_notMem hnot, hs.apart.1]
  have hcount := hs.account it
  rw [hunits, hs.fresh] at hcount
  omega

theorem release_held (hmem : h ∈ s.held) (deep : env.Deep 1) :
    ∃ w', release h env w = .done () w' ∧ GivenBack {h} w w' := by
  have hcount := hs.counted h
  rw [units_giveBack seq it hmem, Multiset.count_add, Multiset.count_add, Multiset.count_cons,
    Multiset.count_singleton_self] at hcount
  refine release_item deep hs.inOrder (by omega) ((hs.held h hmem).imp_left fun hunit => ?_)
  have hsequence := Multiset.one_le_count_iff_mem.2 (Multiset.mem_coe.2 hunit)
  omega

theorem release_it (hopen : s.isOpen = true) (hlast : w.heap.refcount it = 1)
    (deep : env.Deep 2) : ∃ w', release it env w = .done () w' ∧ GivenBack ({it} + {seq}) w w' := by
  have hcount := hs.counted seq
  rw [units_close seq it hopen] at hcount
  simp only [Multiset.count_add, Multiset.count_cons_self, Multiset.count_singleton_self] at hcount
  exact release_iterator deep hs.inOrder hlast (hs.position hopen) hs.apart.1 (by omega)

end Holds

end Iteration

section

variable (ordered : start.heap.InOrder) (found : start.heap.payload? seq = some body)
  (lists : body.Lists xs) (counted : Counted (seq ::ₘ ↑body.units) start)
include ordered found lists counted

theorem Iteration.holds_begun (run : getIter seq env start = .done (some it) w) :
    Iteration.begun.Holds start seq body it xs w := by
  obtain ⟨it', w', hrun, htaken, hfresh, hit⟩ := getIter_begins ordered found lists env
  rw [hrun] at run
  cases run
  have hunits : Iteration.begun.units seq it = {seq} + {it} := by
    change (0 : Multiset Handle) + ({it} + {seq}) = _
    rw [zero_add, add_comm]
  have hgone : it ∉ seq ::ₘ (↑body.units : Multiset Handle) := fun hmem => by
    have hcount := (Multiset.one_le_count_iff_mem.2 hmem).trans (counted it)
    rw [Heap.refcount_of_gone hfresh] at hcount
    omega
  rw [Multiset.mem_cons, not_or] at hgone
  refine ⟨htaken.inOrder, htaken.kept seq body found, hgone, Heap.refcount_of_gone hfresh,
    fun _ => ?_, fun k => ?_, fun k => ?_, .nil, fun k hk => absurd hk (Multiset.notMem_zero k)⟩
  · exact hit
  · rw [hunits, htaken.counts, Multiset.count_add]
    exact Nat.add_le_add_right (counted k) _
  · rw [hunits, htaken.counts]
    change _ = _ + (0 : ℤ) + _
    omega

theorem Iterated.holds {s : Iteration} (hi : Iterated start seq body it s w) :
    s.Holds start seq body it xs w := by
  induction hi with
  | begun run => exact Iteration.holds_begun ordered found lists counted run
  | @next env s w w' h q _ hopen run hq ih =>
    obtain hlt | hlast := ih.length_le.lt_or_eq
    · obtain ⟨h', w₁, hrun, hcomes, hadvanced⟩ :=
        ih.iterNext_item lists hopen (List.getElem?_eq_getElem hlt) env
      rw [hrun] at run
      cases run
      exact ih.next lists hopen (List.getElem?_eq_getElem hlt) hcomes hadvanced hq
    · rw [ih.iterNext_end lists hopen hlast env] at run
      cases run
  | @giveBack env s w w' h _ hmem deep run ih =>
    obtain ⟨w₁, hrun, hback⟩ := ih.release_held hmem deep
    rw [hrun] at run
    cases run
    exact ih.givenBack hback rfl rfl id (Multiset.erase_subset h s.held)
      (Iteration.units_giveBack seq it hmem)
  | @close env s w w' _ hopen hlast deep run ih =>
    obtain ⟨w₁, hrun, hback⟩ := ih.release_it hopen hlast deep
    rw [hrun] at run
    cases run
    exact ih.givenBack hback rfl rfl (fun _ => hopen) (fun _ h => h)
      (Iteration.units_close seq it hopen)
  | aside _ haside ih => exact ih.aside haside

end

theorem Text.ofList_cons (c : Char) (cs : List Char) :
    String.ofList (c :: cs) = String.singleton c ++ String.ofList cs := by
  rw [String.singleton_eq_ofList, ← String.ofList_append]
  rfl

theorem Text.utf8ByteSize_ofList (cs : List Char) :
    (String.ofList cs).utf8ByteSize = (cs.map Char.utf8Size).sum := by
  induction cs with
  | nil => rfl
  | cons c cs ih =>
    rw [ofList_cons, String.utf8ByteSize_append, String.utf8ByteSize_singleton, ih, List.map_cons,
      List.sum_cons]

theorem join_of_gives {cs : List Char} {gs : List (Handle × Payload)}
    (hgives : List.Forall₂ Item.Gives (cs.map .char) gs) :
    String.join (gs.filterMap fun g => g.2.asText?) = String.ofList cs := by
  induction cs generalizing gs with
  | nil =>
    cases hgives
    rfl
  | cons c cs ih =>
    obtain _ | ⟨hhead, htail⟩ := hgives
    rename_i g gs
    have htext : g.2.asText? = some (String.singleton c) := congrArg Payload.asText? hhead
    simp only [List.filterMap_cons, htext]
    rw [String.join_cons, ih htail, Text.ofList_cons]

namespace Iteration

variable {s : Iteration}

namespace Holds

variable (hs : s.Holds start seq body it xs w)
include hs

/-- Of a text as much was yielded as lies before the iterator. -/
theorem text_eq {t : String} (lists : Payload.Lists (.str t) xs) :
    s.text = String.ofList (t.toList.take s.given.length) := by
  cases lists
  refine join_of_gives ?_
  rw [List.map_take]
  exact hs.given

theorem text_append {t : String} (lists : Payload.Lists (.str t) xs) :
    t = s.text ++ String.ofList (t.toList.drop s.given.length) := by
  rw [hs.text_eq lists, ← String.ofList_append, List.take_append_drop, String.ofList_toList]

theorem offset_eq {t : String} (lists : Payload.Lists (.str t) xs) :
    Payload.offset (.str t) s.given.length = s.text.utf8ByteSize := by
  rw [hs.text_eq lists, Text.utf8ByteSize_ofList]
  rfl

theorem ends (lists : body.Lists xs) (hopen : s.isOpen = true) (env : Env U) :
    ∃ hs w', HandsOut env it w hs w' ∧ s.given.length + hs.length = xs.length ∧
      w'.pending = w.pending := by
  -- on the number of items that are left
  obtain ⟨m, hm⟩ : ∃ m, s.given.length + m = xs.length := ⟨_, Nat.add_sub_of_le hs.length_le⟩
  induction m generalizing s w with
  | zero => exact ⟨[], w, .stop (hs.iterNext_end lists hopen hm env), hm, rfl⟩
  | succ m ih =>
    have hlt : s.given.length < xs.length := by omega
    obtain ⟨h, w₁, hrun, hcomes, hadvanced⟩ :=
      hs.iterNext_item lists hopen (List.getElem?_eq_getElem hlt) env
    have hpos : 0 < w₁.heap.refcount h := by
      rw [hadvanced.counts, Multiset.count_singleton_self]
      omega
    obtain ⟨q, hq⟩ := Heap.payload?_of_pos hadvanced.inOrder hpos
    have hlength : (s.next h q).given.length = s.given.length + 1 := List.length_append
    obtain ⟨ks, w₂, hrest, hall, hpending⟩ :=
      ih (hs.next lists hopen (List.getElem?_eq_getElem hlt) hcomes hadvanced hq) hopen (by omega)
    refine ⟨h :: ks, w₂, .item hrun hrest, ?_, hpending.trans hadvanced.pending⟩
    rw [List.length_cons]
    omega

end Holds

theorem Holds.faithful (hs : s.Holds start seq body it xs w) (lists : body.Lists xs) :
    s.Faithful start seq body it xs w where
  atMost := hs.length_le
  items := hs.given
  text t ht := by
    subst ht
    refine ⟨⟨_, hs.text_append lists⟩, fun hall => ?_⟩
    have hlength : t.toList.length = xs.length := by
      cases lists
      simp
    rw [hs.text_eq lists, hall, ← hlength, List.take_length, String.ofList_toList]
  position hopen := by
    refine ⟨_, hs.position hopen, ?_⟩
    cases lists with
    | list | set | tuple => rfl
    | str t =>
      have hoffset := hs.offset_eq (.str t)
      exact ⟨hoffset, String.Pos.Raw.isValid_iff_exists_append.2
        ⟨_, _, hs.text_append (.str t), congrArg String.Pos.Raw.mk hoffset⟩⟩
  next hopen x hx env := by
    obtain ⟨h, w', hrun, hcomes, hadvanced⟩ := hs.iterNext_item lists hopen hx env
    exact ⟨h, w', hrun, hcomes, hadvanced.pending, hadvanced.counts⟩
  stop hopen hlast env := hs.iterNext_end lists hopen hlast env
  ends hopen env := hs.ends lists hopen env
  sole := hs.sole
  giveBack h hmem env deep := by
    obtain ⟨w', hrun, hback⟩ := hs.release_held hmem deep
    exact ⟨w', hrun, hback.pending⟩
  close hopen hlast env deep := by
    obtain ⟨w', hrun, hback⟩ := hs.release_it hopen hlast deep
    exact ⟨w', hrun, hback.pending⟩
  counts := hs.account
  restored hheld hclosed hothers k := by
    have hcount := hs.account k
    have hunits : s.units seq it = 0 := by simp [units, hheld, hclosed]
    rw [hunits, hothers, Multiset.count_zero] at hcount
    change _ = _ + (0 : ℤ) + _ at hcount
    omega
  lengths env := lengths_run hs.sequence lists.length? env

end Iteration

/-- Iteration over a builtin sequence yields exactly what the sequence holds, whatever else goes on
that leaves the sequence alone. -/
theorem iteration_faithful (ordered : start.heap.InOrder)
    (found : start.heap.payload? seq = some body) (lists : body.Lists xs)
    (counted : Counted (seq ::ₘ ↑body.units) start) :
    (∀ env, ∃ it w, getIter seq env start = .done (some it) w ∧ w.pending = start.pending ∧
      start.heap.entryAt? it = none) ∧
    ∀ it s w, Iterated start seq body it s w → s.Faithful start seq body it xs w := by
  refine ⟨fun env => ?_, fun it s w hi => ?_⟩
  · obtain ⟨it, w, hrun, htaken, hfresh, -⟩ := getIter_begins ordered found lists env
    exact ⟨it, w, hrun, htaken.pending, hfresh⟩
  · exact (hi.holds ordered found lists counted).faithful lists

def snowman : Heap := (Heap.empty.insert (.str "é☃")).2

theorem snowman_exact : Exact .blank ({⟨0, 0⟩} + 0) (bare snowman) := by
  have hempty : Exact .blank 0 (bare .empty) := ⟨Heap.empty_inOrder, fun _ => rfl, trivial⟩
  exact hempty.insert_leaf (.str "é☃") rfl

/-- Both characters are yielded. The second is given back, then the iterator, then the first, and all
counts are as before. -/
theorem iteration_faithful_snowman : ∃ it s w,
    Iterated (bare snowman) ⟨0, 0⟩ (.str "é☃") it s w ∧ s.given.length = 2 ∧ s.text = "é☃" ∧
      s.held = 0 ∧ s.isOpen = false ∧ ∀ k, w.heap.refcount k = snowman.refcount k := by
  obtain ⟨env, deep⟩ : ∃ env : Env Unit, env.Deep 2 :=
    ⟨_, tie_deep (fun _ u => u) (fun _ => .exhausted) 2⟩
  have deep₁ : env.Deep 1 := deep.of_le (Nat.le_succ 1)
  obtain ⟨begins, faithful⟩ := iteration_faithful snowman_exact.inOrder rfl (.str "é☃")
    (snowman_exact.sequence_counted rfl)
  obtain ⟨it, w₀, hbegun, -, -⟩ := begins env
  have hi₀ : Iterated (bare snowman) ⟨0, 0⟩ (.str "é☃") it .begun w₀ := .begun hbegun
  obtain ⟨e₁, w₁, hrun₁, ⟨-, hp₁⟩, -, -⟩ := (faithful _ _ _ hi₀).next rfl (.char 'é') rfl env
  have hi₁ := hi₀.next rfl hrun₁ hp₁
  obtain ⟨e₂, w₂, hrun₂, ⟨-, hp₂⟩, -, -⟩ := (faithful _ _ _ hi₁).next rfl (.char '☃') rfl env
  have hi₂ := hi₁.next rfl hrun₂ hp₂
  have hmem₂ : e₂ ∈ {e₂} + ({e₁} + (0 : Multiset Handle)) := by simp
  obtain ⟨w₃, hrun₃, -⟩ := (faithful _ _ _ hi₂).giveBack e₂ hmem₂ env deep₁
  have hi₃ := hi₂.giveBack hmem₂ deep₁ hrun₃
  have hlast : w₃.heap.refcount it = 1 := by
    have hsole : (w₃.heap.refcount it : ℤ) = 1 + 0 := (faithful _ _ _ hi₃).sole rfl
    omega
  obtain ⟨w₄, hrun₄, -⟩ := (faithful _ _ _ hi₃).close rfl hlast env deep
  have hi₄ := hi₃.close rfl hlast deep hrun₄
  have hmem₁ : e₁ ∈ ({e₂} + ({e₁} + (0 : Multiset Handle))).erase e₂ := by simp
  obtain ⟨w₅, hrun₅, -⟩ := (faithful _ _ _ hi₄).giveBack e₁ hmem₁ env deep₁
  have hi₅ := hi₄.giveBack hmem₁ deep₁ hrun₅
  have hheld : (({e₂} + ({e₁} + (0 : Multiset Handle))).erase e₂).erase e₁ = 0 := by simp
  have hfaithful := faithful _ _ _ hi₅
  exact ⟨it, _, w₅, hi₅, rfl, (hfaithful.text "é☃" rfl).2 rfl, hheld, rfl,
    hfaithful.restored hheld rfl rfl⟩

end Causeway
