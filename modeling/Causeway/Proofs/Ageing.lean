import Causeway.Proofs.ScriptComposition
import Causeway.Proofs.StaleHandles
import Causeway.Proofs.Along
/-!
# What time does to objects

An object that lives only grows older. A list gets longer, a slot of a tuple that was filled stays
filled, a builtin iterator goes on, past a position only where its sequence has something, and an
adapter at its end stays there; everything else stays as it is. Whatever the library does keeps to
this if user code does, faults included.

A handle is one object until its slot is vacated, so how often each slot was vacated is counted
beside the heap. The generation of the slot is that count, as far as it can tell.
-/
set_option autoImplicit false

namespace Causeway

open Act

variable {U α β : Type}

/-- An adapter that is at its end stays as it is, through any number of calls. -/
theorem NativeState.Lasts.trans {s s' s'' : NativeState} (h : s.Lasts s') (h' : s'.Lasts s'') :
    s.Lasts s'' :=
  fun a ha hend => h' a (h a ha hend) hend

inductive Payload.Ages : Payload → Payload → Prop where
  | refl (p : Payload) : Ages p p
  | list (items more : List Handle) : Ages (.list items) (.list (items ++ more))
  | tuple {slots slots' : List (Option Handle)}
      (filled : ∀ (i : Nat) (k : Handle), slots[i]? = some (some k) →
        ∃ k' : Handle, slots'[i]? = some (some k')) : Ages (.tuple slots) (.tuple slots')
  | iterator (seq : Handle) {n m : Nat} (on : n ≤ m) : Ages (.iterator seq n) (.iterator seq m)
  | away (d : Descriptor) (s : Option NativeState) : Ages (.native d s) (.native d Option.none)
  | native (d : Descriptor) {s s' : NativeState} (lasts : s.Lasts s') :
      Ages (.native d (some s)) (.native d (some s'))

namespace Payload

variable {p q r : Payload} {n : Nat}

theorem Ages.trans (h : p.Ages q) (h' : q.Ages r) : p.Ages r := by
  cases h with
  | refl => exact h'
  | list items more =>
    cases h' with
    | refl => exact .list items more
    | list _ more' =>
      rw [List.append_assoc]
      exact .list items (more ++ more')
  | tuple filled =>
    cases h' with
    | refl => exact .tuple filled
    | tuple filled' =>
      refine .tuple fun i k hk => ?_
      obtain ⟨k', hk'⟩ := filled i k hk
      exact filled' i k' hk'
  | iterator seq on =>
    cases h' with
    | refl => exact .iterator seq on
    | iterator _ on' => exact .iterator seq (on.trans on')
  | away d s =>
    cases h' with
    | refl | away => exact .away d s
  | native d lasts =>
    cases h' with
    | refl => exact .native d lasts
    | away => exact .away d _
    | native _ lasts' => exact .native d (lasts.trans lasts')

theorem Grows.ages (h : p.Grows q) : p.Ages q := by
  cases h with
  | append items item => exact .list items [item]
  | fill slots i h =>
    refine .tuple fun j k hk => ?_
    have hlt := (List.getElem?_eq_some_iff.1 hk).1
    by_cases hij : i = j
    · exact ⟨h, by rw [hij, List.getElem?_set_self hlt]⟩
    · exact ⟨k, by rw [List.getElem?_set_ne hij, hk]⟩

theorem stepAt_list_ne_stop (items : List Handle) :
    (list items).stepAt n ≠ .stop ↔ n < items.length := by
  rw [stepAt]
  cases hn : items[n]? with
  | none => simpa using hn
  | some k => simpa using (List.getElem?_eq_some_iff.1 hn).1

theorem stepAt_tuple_ne_stop (slots : List (Option Handle)) :
    (tuple slots).stepAt n ≠ .stop ↔ ∃ k, slots[n]? = some (some k) := by
  rw [stepAt]
  match slots[n]? with
  | some (some k) => simp
  | some Option.none | Option.none => simp

theorem Ages.stepAt_ne_stop (h : p.Ages q) (hp : p.stepAt n ≠ .stop) : q.stepAt n ≠ .stop := by
  cases h with
  | refl => exact hp
  | list items more =>
    rw [stepAt_list_ne_stop] at hp ⊢
    rw [List.length_append]
    omega
  | tuple filled =>
    rw [stepAt_tuple_ne_stop] at hp ⊢
    obtain ⟨k, hk⟩ := hp
    exact filled n k hk
  | iterator | away | native => exact absurd rfl hp

theorem Ages.of_iterator {seq : Handle} (h : Ages (.iterator seq n) q) :
    ∃ m, n ≤ m ∧ q = .iterator seq m := by
  cases h with
  | refl => exact ⟨n, le_rfl, rfl⟩
  | iterator _ on => exact ⟨_, on, rfl⟩

theorem Ages.of_away {d : Descriptor} (h : Ages (.native d Option.none) q) :
    q = .native d Option.none := by
  cases h <;> rfl

theorem le_of_stepAt_item {k : Handle} {m : Nat} (h : p.stepAt n = .item k m) : n ≤ m := by
  unfold stepAt at h
  repeat' split at h
  all_goals cases h
  all_goals exact Nat.le_succ n

theorem le_of_stepAt_char {c : Char} {m : Nat} (h : p.stepAt n = .char c m) : n ≤ m := by
  unfold stepAt at h
  repeat' split at h
  all_goals cases h
  exact Nat.le_add_right n _

end Payload

namespace Heap

def generation (heap : Heap) (i : Nat) : UInt32 := (heap.outline i).elim 0 (·.1)

section

variable {heap next : Heap} {h : Handle} {e : HeapEntry} {p : Payload} {n : Nat}

theorem generation_of_entryAt? (he : heap.entryAt? h = some e) :
    heap.generation h.index = h.generation := by
  rw [generation, outline_of_entryAt? he]
  rfl

theorem generation_insert_fst (ho : heap.InOrder) (p : Payload) :
    heap.generation (heap.insert p).1.index = (heap.insert p).1.generation := by
  obtain ⟨hslot | ⟨hslot, hfirst⟩, -⟩ := insert_outline ho p
  · rw [generation, hslot]
    rfl
  · rw [generation, hslot, hfirst]
    rfl

theorem insert_generation (ho : heap.InOrder) (p : Payload) (i : Nat) :
    (heap.insert p).2.generation i = heap.generation i := by
  by_cases hi : i = (heap.insert p).1.index
  · rw [hi, generation_insert_fst ho, generation, (insert_outline ho p).2, if_pos rfl]
    rfl
  · rw [generation, generation, (insert_outline ho p).2, if_neg hi]

theorem increment?_generation (done : heap.increment? h = some (n, next)) (i : Nat) :
    next.generation i = heap.generation i := by
  rw [generation, generation, increment?_outline done]

theorem decrement?_alive_generation (done : heap.decrement? h = some (.alive n, next)) (i : Nat) :
    next.generation i = heap.generation i := by
  rw [generation, generation, decrement?_alive_outline done]

theorem decrement?_dead_generation (done : heap.decrement? h = some (.dead p, next)) (i : Nat) :
    next.generation i = if i = h.index then heap.generation i + 1 else heap.generation i := by
  obtain ⟨hslot, houtline⟩ := decrement?_dead_outline done
  rw [generation, generation, houtline]
  by_cases hi : i = h.index
  · rw [if_pos hi, if_pos hi, hi, hslot]
    rfl
  · rw [if_neg hi, if_neg hi]

theorem setPayload_generation (heap : Heap) (h : Handle) (p : Payload) (i : Nat) :
    (heap.setPayload h p).generation i = heap.generation i := by
  rw [generation, generation, setPayload_outline]

end

/-- Something stands at the position of the sequence. -/
def Offers (heap : Heap) (seq : Handle) (n : Nat) : Prop :=
  ∃ p, heap.payload? seq = some p ∧ p.stepAt n ≠ .stop

structure Ages (heap : Heap) (v : Nat → Nat) (next : Heap) : Prop where
  vacated : ∀ i, heap.stats.deallocations + v i ≤ next.stats.deallocations
  generation : ∀ i, next.generation i = heap.generation i + UInt32.ofNat (v i)
  payload : ∀ h p, v h.index = 0 → heap.payload? h = some p →
    ∃ p', next.payload? h = some p' ∧ p.Ages p'
  passed : ∀ it seq n m, v it.index = 0 → v seq.index = 0 →
    heap.payload? it = some (.iterator seq n) → next.payload? it = some (.iterator seq m) →
    n ≠ m → next.Offers seq n

variable {heap next last : Heap} {v v' : Nat → Nat} {h it seq : Handle} {p p' : Payload} {n m : Nat}

theorem Ages.of_kept (stats : next.stats.deallocations = heap.stats.deallocations)
    (generation : ∀ i, next.generation i = heap.generation i)
    (kept : ∀ h p, heap.payload? h = some p → next.payload? h = some p) :
    heap.Ages (fun _ => 0) next where
  vacated _ := stats.ge
  generation i := (generation i).trans (UInt32.add_zero _).symm
  payload h p _ hp := ⟨p, kept h p hp, .refl p⟩
  passed it seq n m _ _ hn hm hne := by
    rw [kept it _ hn] at hm
    cases hm
    exact absurd rfl hne

theorem Ages.trans (a : heap.Ages v next) (a' : next.Ages v' last) :
    heap.Ages (fun i => v i + v' i) last where
  vacated i := by
    have hfirst := a.vacated i
    have hsecond := a'.vacated i
    omega
  generation i := by rw [a'.generation, a.generation, UInt32.ofNat_add, UInt32.add_assoc]
  payload h p hv hp := by
    obtain ⟨hv, hv'⟩ := Nat.add_eq_zero_iff.1 hv
    obtain ⟨q, hq, hpq⟩ := a.payload h p hv hp
    obtain ⟨r, hr, hqr⟩ := a'.payload h q hv' hq
    exact ⟨r, hr, hpq.trans hqr⟩
  passed it seq n m hit hseq hn hm hne := by
    obtain ⟨hit, hit'⟩ := Nat.add_eq_zero_iff.1 hit
    obtain ⟨hseq, hseq'⟩ := Nat.add_eq_zero_iff.1 hseq
    obtain ⟨_, hk, haged⟩ := a.payload it _ hit hn
    obtain ⟨k, -, rfl⟩ := haged.of_iterator
    by_cases hnk : n = k
    · exact a'.passed it seq n m hit' hseq' (hnk ▸ hk) hm hne
    · obtain ⟨p, hp, hstands⟩ := a.passed it seq n k hit hseq hn hk hnk
      obtain ⟨q, hq, haged⟩ := a'.payload seq p hseq' hp
      exact ⟨q, hq, haged.stepAt_ne_stop hstands⟩

/-- Fewer objects died than a generation can count, so a handle that is alive is the same object. -/
theorem Ages.eq_zero (a : heap.Ages v next)
    (few : next.stats.deallocations < heap.stats.deallocations + 2 ^ 32)
    (before : heap.payload? h = some p) (after : next.payload? h = some p') : v h.index = 0 := by
  have hgeneration : ∀ {heap : Heap} {q : Payload}, heap.payload? h = some q →
      heap.generation h.index = h.generation := by
    intro heap q hq
    obtain ⟨e, he, -⟩ := (payload?_eq_some_iff heap h q).1 hq
    exact generation_of_entryAt? he
  have hsame := a.generation h.index
  rw [hgeneration before, hgeneration after] at hsame
  have hvacated := a.vacated h.index
  have hcount := congrArg UInt32.toNat hsame
  rw [UInt32.toNat_add, UInt32.toNat_ofNat'] at hcount
  have hlt := h.generation.toNat_lt
  omega

def Becomes (heap next : Heap) : Prop :=
  heap.InOrder → next.InOrder ∧ ∃ v, heap.Ages v next

namespace Becomes

theorem refl (heap : Heap) : heap.Becomes heap :=
  fun ho => ⟨ho, _, .of_kept rfl (fun _ => rfl) fun _ _ h => h⟩

theorem trans (b : heap.Becomes next) (b' : next.Becomes last) : heap.Becomes last := by
  intro ho
  obtain ⟨ho', v, a⟩ := b ho
  obtain ⟨ho'', v', a'⟩ := b' ho'
  exact ⟨ho'', _, a.trans a'⟩

/-- An object that is there in the end was there all the time. -/
theorem through (b : heap.Becomes next) (b' : next.Becomes last) (ho : heap.InOrder)
    (few : last.stats.deallocations < heap.stats.deallocations + 2 ^ 32)
    (before : heap.payload? h = some p) (after : last.payload? h = some p') :
    ∃ q, next.payload? h = some q ∧ p.Ages q ∧ q.Ages p' := by
  obtain ⟨ho', v, a⟩ := b ho
  obtain ⟨-, v', a'⟩ := b' ho'
  obtain ⟨hv, hv'⟩ := Nat.add_eq_zero_iff.1 ((a.trans a').eq_zero few before after)
  obtain ⟨q, hq, haged⟩ := a.payload h p hv before
  obtain ⟨r, hr, haged'⟩ := a'.payload h q hv' hq
  rw [after] at hr
  cases hr
  exact ⟨q, hq, haged, haged'⟩

theorem insert (heap : Heap) (p : Payload) : heap.Becomes (heap.insert p).2 := by
  intro ho
  refine ⟨insert_inOrder ho p, _, .of_kept ?_ (insert_generation ho p) fun h q hq => ?_⟩
  · obtain hp | ⟨_, _, _, _, _, hp⟩ := insert_cases ho p <;> rw [hp] <;> rfl
  · rw [insert_kept ho p hq]

theorem increment (done : heap.increment? h = some (n, next)) : heap.Becomes next := by
  intro ho
  refine ⟨increment?_inOrder done ho, _, .of_kept ?_ (increment?_generation done) fun k q hq => ?_⟩
  · obtain ⟨e, -, -, rfl⟩ := increment?_eq_some done
    rfl
  · rw [increment?_payload? done, hq]

theorem alive (done : heap.decrement? h = some (.alive n, next)) : heap.Becomes next := by
  intro ho
  refine ⟨decrement?_inOrder done ho, _,
    .of_kept ?_ (decrement?_alive_generation done) fun k q hq => ?_⟩
  · obtain ⟨e, -, ⟨-, -, rfl⟩ | ⟨-, ⟨⟩, -⟩⟩ := decrement?_eq_some done
    rfl
  · rw [decrement?_alive_payload? done, hq]

/-- The slot of the object that dies is vacated, and no other. -/
theorem dead (done : heap.decrement? h = some (.dead p, next)) : heap.Becomes next := by
  intro ho
  have hstats : next.stats.deallocations = heap.stats.deallocations + 1 := by
    obtain ⟨e, -, ⟨-, ⟨⟩, -⟩ | ⟨-, -, rfl⟩⟩ := decrement?_eq_some done
    rfl
  have hkept : ∀ (k : Handle) q, (if k.index = h.index then 1 else 0) = 0 →
      heap.payload? k = some q → next.payload? k = some q := by
    intro k q hk hq
    have hne : k ≠ h := by
      rintro rfl
      simp at hk
    rw [(decrement?_dead_payload? done).2, if_neg hne, hq]
  refine ⟨decrement?_inOrder done ho, fun i => if i = h.index then 1 else 0,
    ⟨fun i => ?_, fun i => ?_, fun k q hk hq => ⟨q, hkept k q hk hq, .refl q⟩,
      fun it seq n m hit _ hn hm hne => ?_⟩⟩
  · rw [hstats]
    split <;> omega
  · rw [decrement?_dead_generation done]
    split
    · rfl
    · exact (UInt32.add_zero _).symm
  · rw [hkept it _ hit hn] at hm
    cases hm
    exact absurd rfl hne

/-- A payload ages; if it is an iterator's, then past what the sequence has. -/
theorem setPayload (found : heap.payload? h = some p) (ages : p.Ages p')
    (passed : ∀ seq n m, p = .iterator seq n → p' = .iterator seq m → n ≠ m → heap.Offers seq n) :
    heap.Becomes (heap.setPayload h p') := by
  have hpayload := setPayload_payload? found p'
  obtain ⟨e, he, -⟩ := (payload?_eq_some_iff heap h p).1 found
  refine fun ho => ⟨setPayload_inOrder ho h p', fun _ => 0, ⟨fun i => ?_, fun i => ?_,
    fun k q _ hq => ?_, fun it seq n m _ _ hn hm hne => ?_⟩⟩
  · rw [setPayload_of_entryAt? he]
    rfl
  · rw [setPayload_generation]
    exact (UInt32.add_zero _).symm
  · rw [hpayload]
    by_cases hk : k = h
    · rw [hk, found] at hq
      cases hq
      exact ⟨p', if_pos hk, ages⟩
    · exact ⟨q, by rw [if_neg hk, hq], .refl q⟩
  · rw [hpayload] at hm
    split at hm
    · rename_i hit
      rw [hit, found] at hn
      cases hn
      cases hm
      obtain ⟨q, hq, hstands⟩ := passed seq n m rfl rfl hne
      refine ⟨q, ?_, hstands⟩
      rw [hpayload, if_neg, hq]
      rintro rfl
      rw [found] at hq
      cases hq
      exact hstands rfl
    · rw [hn] at hm
      cases hm
      exact absurd rfl hne

theorem grow (found : heap.payload? h = some p) (grows : p.Grows p') :
    heap.Becomes (heap.setPayload h p') :=
  setPayload found grows.ages fun seq n m hp => by
    cases grows <;> cases hp

theorem lend {d : Descriptor} {s : Option NativeState}
    (found : heap.payload? h = some (.native d s)) :
    heap.Becomes (heap.setPayload h (.native d none)) :=
  setPayload found (.away d s) fun _ _ _ hp => by cases hp

end Becomes

/-- A state that was lent comes back to an object that waits for it. -/
theorem Ages.restore {d d' : Descriptor} {s s' : NativeState}
    (found : heap.payload? h = some (.native d (some s)))
    (a : (heap.setPayload h (.native d none)).Ages v next)
    (waits : next.payload? h = some (.native d' none)) (lasts : s.Lasts s') :
    heap.Ages v (next.setPayload h (.native d' (some s'))) := by
  have hlent := setPayload_payload? found (.native d none)
  have hback := setPayload_payload? waits (.native d' (some s'))
  obtain ⟨e, he, -⟩ := (payload?_eq_some_iff heap h _).1 found
  obtain ⟨e', he', -⟩ := (payload?_eq_some_iff next h _).1 waits
  have hfirst := setPayload_of_entryAt? he (.native d none)
  have hlast := setPayload_of_entryAt? he' (.native d' (some s'))
  refine ⟨fun i => ?_, fun i => ?_, fun k q hk hq => ?_, fun it seq n m hit hseq hn hm hne => ?_⟩
  · have hvacated := a.vacated i
    rw [hfirst] at hvacated
    rw [hlast]
    exact hvacated
  · have hgeneration := a.generation i
    rw [setPayload_generation] at hgeneration
    rw [setPayload_generation]
    exact hgeneration
  · rw [hback]
    by_cases hkh : k = h
    · subst hkh
      rw [found] at hq
      cases hq
      obtain ⟨_, hwaits, haged⟩ := a.payload k _ hk (by rw [hlent, if_pos rfl])
      rw [waits, haged.of_away] at hwaits
      cases hwaits
      exact ⟨_, if_pos rfl, .native d lasts⟩
    · rw [if_neg hkh]
      exact a.payload k q hk (by rw [hlent, if_neg hkh, hq])
  · have hith : it ≠ h := by
      rintro rfl
      rw [found] at hn
      cases hn
    rw [hback, if_neg hith] at hm
    obtain ⟨q, hq, hstands⟩ := a.passed it seq n m hit hseq (by rw [hlent, if_neg hith, hn]) hm hne
    refine ⟨q, ?_, hstands⟩
    rw [hback, if_neg, hq]
    rintro rfl
    rw [waits] at hq
    cases hq
    exact hstands rfl

end Heap

def Act.Ages (env : Env U) (act : Act U α) : Prop :=
  ∀ w w', (act env w).EndsIn w' → w.heap.Becomes w'.heap

structure Env.Ages (env : Env U) : Prop where
  release : ∀ h, (Causeway.release h).Ages env
  call : ∀ code hs, Act.Ages env fun env w => env.hooks.call code hs w
  slot : ∀ code h, Act.Ages env fun env w => env.hooks.slot code h w
  measure : ∀ code h, Act.Ages env fun env w => env.hooks.measure code h w
  destroy : ∀ code hs, Act.Ages env fun env w => env.hooks.destroy code hs w
  toPeer : ∀ code t v, Act.Ages env fun env w => env.hooks.toPeer code t v w

namespace Act.Ages

variable {env : Env U}

theorem of_heap_eq {act : Act U α} (hact : ∀ w w', (act env w).EndsIn w' → w'.heap = w.heap) :
    act.Ages env :=
  fun w w' hend => hact w w' hend ▸ .refl w.heap

theorem pure (a : α) : (Pure.pure a : Act U α).Ages env :=
  of_heap_eq fun _ _ hend => by cases hend; rfl

theorem fault (c : Fault) : (Act.fault c : Act U α).Ages env :=
  of_heap_eq fun _ _ hend => by cases hend; rfl

theorem emit (e : Log.Event) : (Act.emit e : Act U Unit).Ages env :=
  of_heap_eq fun _ _ hend => by cases hend; rfl

theorem swap (next : Option Raised) : (Indicator.swap next : Act U (Option Raised)).Ages env :=
  of_heap_eq fun _ _ hend => by cases hend; rfl

theorem modifyClient (f : U → U) : (Act.modifyClient f : Act U Unit).Ages env :=
  of_heap_eq fun _ _ hend => by cases hend; rfl

theorem reads {act : Act U α} (hact : act.Reads) : act.Ages env := by
  refine of_heap_eq fun w w' hend => ?_
  obtain hr | ⟨a, hr⟩ := hact w <;> rw [hr] at hend <;> cases hend
  rfl

theorem done {act : Act U α} (hact : act.Ages env) {w w' : World U} {a : α}
    (hr : act env w = .done a w') : w.heap.Becomes w'.heap :=
  hact w w' (by rw [hr]; rfl)

theorem becomes_trans (w w₁ w₂ : World U) (h : w.heap.Becomes w₁.heap)
    (h' : w₁.heap.Becomes w₂.heap) : w.heap.Becomes w₂.heap :=
  h.trans h'

theorem bind {x : Act U α} {f : α → Act U β} (hx : x.Ages env) (hf : ∀ a, (f a).Ages env) :
    (x >>= f).Ages env :=
  Along.bind becomes_trans hx hf

theorem onFault {act : Act U α} {cleanup : Act U Unit} (hact : act.Ages env)
    (hclean : cleanup.Ages env) : (act.onFault cleanup).Ages env :=
  Along.onFault becomes_trans hact hclean

theorem loop {body : β → Act U (β ⊕ α)} (hbody : ∀ b, (body b).Ages env) (b : β) :
    (Act.loop body b).Ages env :=
  Along.loop becomes_trans (fun w => .refl w.heap) hbody b

theorem traced (e : Log.Event) : (Causeway.traced e : Act U Unit).Ages env := by
  refine bind (reads .settings) fun settings => ?_
  split
  · exact emit e
  · exact pure ()

theorem alloc (p : Payload) : (Causeway.alloc p : Act U Handle).Ages env := by
  have hinsert : (Act.updateHeap (·.insert p) : Act U Handle).Ages env := fun w w' hend => by
    cases hend
    exact .insert w.heap p
  exact bind hinsert fun _ => bind (traced _) fun _ => pure _

theorem acquire (h : Handle) : (Causeway.acquire h : Act U Handle).Ages env := by
  have hincrement : (Act.updateHeap? (·.increment? h) : Act U (Option Nat)).Ages env := by
    intro w w' hend
    unfold Act.updateHeap? at hend
    cases hi : w.heap.increment? h with
    | none =>
      simp only [hi] at hend
      cases hend
      exact .refl _
    | some r =>
      simp only [hi] at hend
      cases hend
      exact .increment hi
  refine bind hincrement fun o => ?_
  cases o with
  | none => exact fault _
  | some n => exact bind (traced _) fun _ => pure _

theorem raise (kind : ExceptionKind) (message : String) :
    (Causeway.raise kind message : Act U Unit).Ages env := by
  refine bind (emit _) fun _ => bind (swap _) fun previous => ?_
  cases previous with
  | none => exact pure ()
  | some previous =>
    refine bind (reads .settings) fun settings => ?_
    split
    · exact fault _
    · exact emit _

variable (henv : env.Ages)

include henv

theorem releaseAll (hs : List Handle) : (Causeway.releaseAll hs : Act U Unit).Ages env := by
  induction hs with
  | nil => exact pure ()
  | cons h hs ih => exact bind (onFault (henv.release h) ih) fun _ => ih

theorem disposeState (d : Descriptor) (s : NativeState) :
    (Causeway.disposeState d s : Act U Unit).Ages env := by
  unfold Causeway.disposeState
  cases d.dealloc with
  | drop => exact bind (emit _) fun _ => releaseAll henv _
  | user code => exact henv.destroy code s.units

theorem releaseNow (h : Handle) : (Causeway.releaseNow h : Act U Unit).Ages env := by
  intro w w' hend
  obtain ⟨_, hrun⟩ | ⟨n, heap, w₁, hd, hnoted, hrun⟩ | ⟨p, heap, w₁, hd, hnoted, hrun⟩ :=
    releaseNow_cases h env w
  · rw [hrun] at hend
    cases hend
    exact .refl _
  · rw [hrun] at hend
    cases hend
    rw [hnoted.kept.2]
    exact .alive hd
  · have hfirst : w.heap.Becomes w₁.heap := by
      rw [hnoted.kept.2]
      exact .dead hd
    obtain hrun | ⟨code, hrun⟩ := hrun <;> rw [hrun] at hend
    · exact hfirst.trans (releaseAll henv p.units w₁ w' hend)
    · exact hfirst.trans (henv.destroy code p.units w₁ w' hend)

omit henv in
/-- The item is in hand, every object as it was, and the iterator goes on past where it stood. -/
theorem goOn {x : Act U Handle} (hx : x.Ages env) {w w' : World U} {it seq : Handle} {n m : Nat}
    (found : w.heap.payload? it = some (.iterator seq n)) (offers : w.heap.Offers seq n)
    (on : n ≤ m) (kept : ∀ k w₁, x env w = .done k w₁ → w.heap.InOrder →
      ∀ h p, w.heap.payload? h = some p → w₁.heap.payload? h = some p)
    (hend : ((do
      let k ← x
      moveTo it m
      Pure.pure (some k) : Act U (Option Handle)) env w).EndsIn w') : w.heap.Becomes w'.heap := by
  intro ho
  obtain ⟨k, w₁, hr, hrest⟩ | hfault := endsIn_bind hend
  · obtain ⟨q, hq, hstands⟩ := offers
    have found₁ := kept k w₁ hr ho it _ found
    simp only [moveTo, bind_run, Act.heap, found₁] at hrest
    cases hrest
    refine (hx.done hr).trans (.setPayload found₁ (.iterator seq on) fun _ _ _ hn _ _ => ?_) ho
    cases hn
    exact ⟨q, kept k w₁ hr ho seq q hq, hstands⟩
  · exact hx w w' hfault ho

omit henv in
theorem nextItem (it : Handle) : (Causeway.nextItem it : Act U (Option Handle)).Ages env := by
  intro w w' hend
  unfold Causeway.nextItem at hend
  simp only [bind_run, Act.heap] at hend
  cases found : w.heap.payload? it with
  | none =>
    rw [found] at hend
    exact pure none w w' hend
  | some p =>
    rw [found] at hend
    cases p with
    | iterator seq n =>
      simp only [sequenceNext, askPayload, bind_run, Act.heap] at hend
      cases hseq : w.heap.payload? seq with
      | none =>
        rw [hseq] at hend
        exact pure none w w' hend
      | some q =>
        simp only [hseq, Option.map_some, Option.getD_some] at hend
        cases hstep : q.stepAt n with
        | stop =>
          rw [hstep] at hend
          exact pure none w w' hend
        | item k m =>
          rw [hstep] at hend
          refine goOn (acquire k) found ⟨q, hseq, by simp [hstep]⟩
            (Payload.le_of_stepAt_item hstep) (fun k' w₁ hr _ h p hp => ?_) hend
          by_cases halive : w.heap.isAlive k = true
          · obtain ⟨w₂, hrun, -, hkept⟩ := acquire_run env halive
            obtain ⟨⟩ := hrun.symm.trans hr
            rw [hkept, hp]
          · rw [acquire_released (by simpa [Heap.isAlive] using halive)] at hr
            cases hr
        | char c m =>
          rw [hstep] at hend
          refine goOn (alloc _) found ⟨q, hseq, by simp [hstep]⟩
            (Payload.le_of_stepAt_char hstep) (fun k' w₁ hr ho h p hp => ?_) hend
          obtain ⟨w₂, hrun, -, hheap⟩ := alloc_run (.str (String.singleton c)) env w
          obtain ⟨⟩ := hrun.symm.trans hr
          rw [hheap, Heap.insert_kept ho _ hp]
    | _ => exact pure none w w' hend

omit henv in
theorem putStateBack {w w₁ w' : World U} {obj : Handle} {d : Descriptor} {s s' : NativeState}
    (found : w.heap.payload? obj = some (.native d (some s))) (lasts : s.Lasts s')
    (lent : (w.heap.setPayload obj (.native d none)).Becomes w₁.heap) {finish : Act U Unit}
    (hfinish : finish.Ages env) (a : α)
    (hend : ((do
      if !(← Causeway.putStateBack obj s') then finish
      Pure.pure a : Act U α) env w₁).EndsIn w') : w.heap.Becomes w'.heap := by
  have hlost : ((finish >>= fun _ => Pure.pure a) env w₁).EndsIn w' → w.heap.Becomes w'.heap :=
    fun h => ((Heap.Becomes.lend found).trans lent).trans
      (bind hfinish (fun _ => pure a) w₁ w' h)
  unfold Causeway.putStateBack at hend
  simp only [bind_run, Act.heap] at hend
  cases hback : w₁.heap.payload? obj with
  | none =>
    rw [hback] at hend
    exact hlost hend
  | some p =>
    rw [hback] at hend
    cases p with
    | native d' o =>
      cases o with
      | none =>
        cases hend
        intro ho
        obtain ⟨ho₁, v, ages⟩ := lent (Heap.setPayload_inOrder ho obj _)
        exact ⟨Heap.setPayload_inOrder ho₁ obj _, v, ages.restore found hback lasts⟩
      | some _ => exact hlost hend
    | _ => exact hlost hend

theorem withState (obj : Handle) (kind : StateKind) (units : α → List Handle)
    {f : kind.State → Act U (kind.State × α)} (hf : ∀ s, (f s).Ages env)
    (lasts : ∀ s, (f s).Answers fun r => (NativeState.of kind s).Lasts (.of kind r.1)) :
    (Causeway.withState obj kind units f).Ages env := by
  have hrefuse : ∀ kind message,
      (do Causeway.raise kind message; Pure.pure none : Act U (Option α)).Ages env :=
    fun kind message => bind (raise kind message) fun _ => pure none
  intro w w' hend
  unfold Causeway.withState at hend
  rw [bind_run] at hend
  simp only [Act.heap] at hend
  cases found : w.heap.payload? obj with
  | none =>
    rw [found] at hend
    exact hrefuse _ _ w w' hend
  | some p =>
    rw [found] at hend
    cases p with
    | native d o =>
      cases o with
      | none => exact hrefuse _ _ w w' hend
      | some s =>
        have hlend : w.heap.Becomes _ := .lend found
        dsimp only at hend
        rw [bind_run] at hend
        simp only [Act.setPayload, Act.updateHeap] at hend
        cases hs : s.get? kind with
        | none =>
          simp only [hs] at hend
          have hraise : (holding s.units
              (raiseType s!"descriptor '{d.name}' does not hold {kind.path}") : Act U Unit).Ages
              env :=
            onFault (raise _ _) (releaseAll henv _)
          obtain ⟨_, w₁, hr, hrest⟩ | hfault := endsIn_bind hend
          · exact putStateBack found (.refl s) (hraise.done hr) (disposeState henv d s) none hrest
          · exact hlend.trans (hraise _ w' hfault)
        | some typed =>
          simp only [hs] at hend
          obtain ⟨r, w₁, hr, hrest⟩ | hfault := endsIn_bind hend
          · have hkept := lasts typed env _ r w₁ hr
            rw [NativeState.of_get? hs] at hkept
            exact putStateBack found hkept ((hf typed).done hr)
              (onFault (disposeState henv d _) (releaseAll henv _)) (some r.2) hrest
          · exact hlend.trans (hf typed _ w' hfault)
    | _ => exact hrefuse _ _ w w' hend

end Act.Ages

section

variable {env : Env U} {own : (α : Type) → Act U α → Prop}

/-- Objects only grow older under what is composed of acts of the library, if they do under the
client's. -/
theorem Act.Composed.ages (henv : env.Ages)
    (hown : ∀ (α : Type) (act : Act U α), own α act → act.Ages env) {act : Act U α}
    (h : Composed own act) : act.Ages env := by
  induction h with
  | own h => exact hown _ _ h
  | reads h => exact .reads h
  | bind _ _ ihx ihf => exact .bind ihx ihf
  | fault c => exact .fault c
  | onFault _ _ ihact ihclean => exact .onFault ihact ihclean
  | loop _ b ih => exact .loop ih b
  | emit e _ => exact .emit e
  | swap next => exact .swap next
  | acquire h => exact .acquire h
  | release h => exact henv.release h
  | alloc _ => exact .alloc _
  | instantiate s _ => exact .alloc _
  | revise next _ agree ih =>
    intro w w' hend
    obtain hr | ⟨h, p, p', found, grows, hr⟩ := agree w <;> rw [hr] at hend
    · exact ih w w w' hend
    · exact (Heap.Becomes.grow found grows).trans (ih w _ w' hend)
  | nextItem it => exact .nextItem it
  | withState obj kind units _ lasts ih => exact .withState henv obj kind units ih lasts
  | call code hs => exact henv.call code hs
  | slot code h => exact henv.slot code h
  | measure code h => exact henv.measure code h
  | toPeer code t v => exact henv.toPeer code t v

/-- An act of the library that has none of the client's among it. -/
theorem Act.Ages.library (henv : env.Ages) {act : Act U α} (h : Composed (fun _ _ => False) act) :
    act.Ages env :=
  h.ages henv fun _ _ => False.elim

theorem tie_ages {observe : Log.Event → U → U} (user : Env U → Hooks U)
    (call : ∀ env : Env U, env.Ages → ∀ code hs,
      Act.Ages env fun env w => (user env).call code hs w)
    (slot : ∀ env : Env U, env.Ages → ∀ code h, Act.Ages env fun env w => (user env).slot code h w)
    (measure : ∀ env : Env U, env.Ages → ∀ code h,
      Act.Ages env fun env w => (user env).measure code h w)
    (destroy : ∀ env : Env U, env.Ages → ∀ code hs,
      Act.Ages env fun env w => (user env).destroy code hs w)
    (toPeer : ∀ env : Env U, env.Ages → ∀ code t v,
      Act.Ages env fun env w => (user env).toPeer code t v w) (n : Nat) :
    (Env.tie observe user n).Ages := by
  induction n with
  | zero =>
    exact ⟨fun _ _ _ h => h.elim, fun _ _ _ _ h => h.elim, fun _ _ _ _ h => h.elim,
      fun _ _ _ _ h => h.elim, fun _ _ _ _ h => h.elim, fun _ _ _ _ _ h => h.elim⟩
  | succ n ih =>
    exact ⟨fun h => Act.Ages.releaseNow ih h, call _ ih, slot _ ih, measure _ ih, destroy _ ih,
      toPeer _ ih⟩

end

namespace Machine

variable {env : Env Client}

theorem Own.ages (α : Type) (act : Run α) (h : Own α act) : act.Ages env := by
  cases h with
  | modify f _ _ => exact .modifyClient f
  | enter id =>
    refine .bind (.reads .client) fun c => ?_
    split
    · exact .pure none
    · exact .bind (.modifyClient _) fun _ => .pure _
  | configure s => exact .of_heap_eq fun _ _ hend => by cases hend; rfl
  | enlist name ops describe _ s =>
    refine .bind (.bind (.reads .client) fun _ => ?_) fun code => .alloc _
    exact .bind (.modifyClient _) fun _ => .pure _

theorem enterDealloc_ages (henv : env.Ages) (id : CodeId) (units : List Handle) :
    (enterDealloc id units).Ages env := by
  have hrelease : ∀ units : List Handle, (releaseAll units : Run Unit).Ages env :=
    fun units => .releaseAll henv units
  refine .bind (.reads (codeAt_reads id)) fun code => ?_
  split
  · rename_i name ops
    have hops : (runOps [] ops).Ages env := (runOps_composed [] ops).ages henv Own.ages
    refine .bind ((note_composed _).ages henv Own.ages) fun _ => ?_
    exact .bind (.onFault (.bind hops fun _ => .emit _) (hrelease units)) fun _ =>
      .bind (hrelease units) fun _ => .pure _
  · exact hrelease units

theorem envOf_ages (n : Nat) : (envOf n).Ages :=
  tie_ages userCode
    (fun _ henv id hs => (enterCall_composed id hs).ages henv Own.ages)
    (fun _ henv id obj => (enterSlot_composed id obj).ages henv Own.ages)
    (fun _ henv id obj => (enterHint_composed id obj).ages henv Own.ages)
    (fun _ henv id hs => enterDealloc_ages henv id hs)
    (fun _ henv id t v => (enterConverter_composed id t v).ages henv Own.ages) n

end Machine

end Causeway
