import Causeway.Proofs.Settling
/-!
# Overlays

A heap seen from where it once stood. The objects of then, the base, are as they were but for units
taken on them since; everything else that is alive was made since and is accounted for object by
object. Parts of an overlay are put beside each other by adding what they own, so what is said of
one part holds whatever the others are. With nothing owned and no unit taken the base is all there
is.
-/
set_option autoImplicit false

namespace Causeway

open Act

variable {U α β : Type} {base : Handle → Option HeapEntry}
  {own own' S T : Multiset (Handle × HeapEntry)} {units units' V W : Multiset Handle}
  {heap next : Heap} {h k : Handle} {p q : Payload} {e : HeapEntry}

structure Overlay (base : Handle → Option HeapEntry) (own : Multiset (Handle × HeapEntry))
    (units : Multiset Handle) (heap : Heap) : Prop where
  inOrder : heap.InOrder
  positive : ∀ h e, base h = some e → 1 ≤ e.refcount
  borne : ∀ h ∈ units, ∃ e, base h = some e
  distinct : (own.map Prod.fst).Nodup
  apart : ∀ x ∈ own, base x.1 = none
  kept : ∀ h e, base h = some e → heap.entryAt? h = some ⟨e.refcount + units.count h, e.payload⟩
  owned : ∀ x ∈ own, heap.entryAt? x.1 = some x.2
  complete : ∀ h e, heap.entryAt? h = some e → base h = none → (h, e) ∈ own

namespace Overlay

theorem start (ho : heap.InOrder) : Overlay heap.entryAt? 0 0 heap where
  inOrder := ho
  positive := ho.positive
  borne := by simp
  distinct := by simp
  apart := by simp
  kept := by simp
  owned := by simp
  complete := by
    intro h e he hnone
    rw [he] at hnone
    cases hnone

/-- With nothing owned beside the base, and no unit taken on it, nothing has changed. -/
theorem entryAt?_eq (ho : Overlay base 0 0 heap) (h : Handle) : heap.entryAt? h = base h := by
  cases hb : base h with
  | some e => simpa using ho.kept h e hb
  | none =>
    cases he : heap.entryAt? h with
    | none => rfl
    | some e => exact absurd (ho.complete h e he hb) (Multiset.notMem_zero _)

theorem congr (ho : Overlay base own units heap) (hown : own = own') (hunits : units = units') :
    Overlay base own' units' heap := hown ▸ hunits ▸ ho

theorem rebase (ho : Overlay base own units heap) (hsame : Overlay heap.entryAt? 0 0 next) :
    Overlay base own units next where
  inOrder := hsame.inOrder
  positive := ho.positive
  borne := ho.borne
  distinct := ho.distinct
  apart := ho.apart
  kept := fun h e he => (hsame.entryAt?_eq h).trans (ho.kept h e he)
  owned := fun x hx => (hsame.entryAt?_eq x.1).trans (ho.owned x hx)
  complete := fun h e he => ho.complete h e ((hsame.entryAt?_eq h).symm.trans he)

theorem payload?_base (ho : Overlay base own units heap) (hb : base h = some e) :
    heap.payload? h = some e.payload := by
  simp [Heap.payload?, ho.kept h e hb]

theorem payload?_own (ho : Overlay base own units heap) (hx : (h, e) ∈ own) :
    heap.payload? h = some e.payload := by
  simp [Heap.payload?, ho.owned _ hx]

theorem insert (ho : Overlay base own units heap) (p : Payload) :
    Overlay base ({((heap.insert p).1, ⟨1, p⟩)} + own) units (heap.insert p).2 := by
  have hfresh := Heap.insert_fresh ho.inOrder p
  have hentry := Heap.insert_entryAt? ho.inOrder p
  have hbase : base (heap.insert p).1 = none := by
    cases hb : base (heap.insert p).1 with
    | none => rfl
    | some e =>
      rw [ho.kept _ e hb] at hfresh
      cases hfresh
  have hother (h : Handle) (e : HeapEntry) (he : heap.entryAt? h = some e) :
      (heap.insert p).2.entryAt? h = some e := by
    have hne : h ≠ (heap.insert p).1 := by
      rintro rfl
      rw [hfresh] at he
      cases he
    rw [hentry, if_neg hne, he]
  refine ⟨Heap.insert_inOrder ho.inOrder p, ho.positive, ho.borne, ?_, ?_, ?_, ?_, ?_⟩
  · rw [Multiset.singleton_add, Multiset.map_cons, Multiset.nodup_cons]
    refine ⟨fun hmem => ?_, ho.distinct⟩
    obtain ⟨x, hx, hfst⟩ := Multiset.mem_map.1 hmem
    have hfound := ho.owned x hx
    rw [show x.1 = (heap.insert p).1 from hfst, hfresh] at hfound
    cases hfound
  · intro x hx
    rcases Multiset.mem_add.1 hx with hx | hx
    · rw [Multiset.mem_singleton.1 hx]
      exact hbase
    · exact ho.apart x hx
  · exact fun h e hb => hother h _ (ho.kept h e hb)
  · intro x hx
    rcases Multiset.mem_add.1 hx with hx | hx
    · rw [Multiset.mem_singleton.1 hx, hentry, if_pos rfl]
    · exact hother x.1 x.2 (ho.owned x hx)
  · intro h e he hb
    rw [hentry] at he
    by_cases hnew : h = (heap.insert p).1
    · rw [if_pos hnew, Option.some.injEq] at he
      simp [hnew, ← he]
    · rw [if_neg hnew] at he
      exact Multiset.mem_add.2 (.inr (ho.complete h e he hb))

/-- A write to an object of the base, where the accounts agree. -/
theorem write_base (ho : Overlay base own units heap) (hnext : next.InOrder)
    (hb : base h = some e) (hunits : ∀ k, k ≠ h → units'.count k = units.count k)
    (hborne : ∀ k ∈ units', ∃ e, base k = some e)
    (hentry : ∀ k, next.entryAt? k =
      if k = h then some ⟨e.refcount + units'.count h, e.payload⟩ else heap.entryAt? k) :
    Overlay base own units' next := by
  have hother (x : Handle × HeapEntry) (hx : x ∈ own) : x.1 ≠ h := by
    intro hxh
    have hnone := ho.apart x hx
    rw [hxh, hb] at hnone
    cases hnone
  refine ⟨hnext, ho.positive, hborne, ho.distinct, ho.apart, ?_, ?_, ?_⟩
  · intro k e' hk
    rw [hentry]
    by_cases hkh : k = h
    · subst hkh
      obtain rfl : e = e' := Option.some.inj (hb.symm.trans hk)
      rw [if_pos rfl]
    · rw [if_neg hkh, hunits k hkh]
      exact ho.kept k e' hk
  · intro x hx
    rw [hentry, if_neg (hother x hx)]
    exact ho.owned x hx
  · intro k e' hk hnone
    rw [hentry] at hk
    have hkh : k ≠ h := by
      rintro rfl
      rw [hb] at hnone
      cases hnone
    rw [if_neg hkh] at hk
    exact ho.complete k e' hk hnone

theorem increment (ho : Overlay base own units heap) (hb : base h = some e) :
    ∃ n next, heap.increment? h = some (n, next) ∧ Overlay base own ({h} + units) next := by
  have hi : ∃ n next, heap.increment? h = some (n, next) := by
    simp [Heap.increment?, ho.kept h e hb]
  obtain ⟨n, next, hi⟩ := hi
  obtain ⟨e', he', hnext⟩ := Heap.increment?_entryAt? hi
  obtain rfl := Option.some.inj (he'.symm.trans (ho.kept h e hb))
  refine ⟨n, next, hi, ho.write_base (Heap.increment?_inOrder hi ho.inOrder) hb ?_ ?_ ?_⟩
  · intro k hk
    simp [hk]
  · intro k hk
    rcases Multiset.mem_add.1 hk with hk | hk
    · exact ⟨e, Multiset.mem_singleton.1 hk ▸ hb⟩
    · exact ho.borne k hk
  · intro k
    simp only [hnext, Multiset.count_add, Multiset.count_singleton_self]
    congr 3
    omega

theorem decrement_shared (ho : Overlay base own ({h} + units) heap) :
    ∃ n next, heap.decrement? h = some (.alive n, next) ∧ Overlay base own units next := by
  obtain ⟨e, hb⟩ := ho.borne h (by simp)
  have hpos := ho.positive h e hb
  have he := ho.kept h e hb
  simp only [Multiset.count_add, Multiset.count_singleton_self] at he
  have hd : ∃ n next, heap.decrement? h = some (.alive n, next) := by
    have hmany : e.refcount + (1 + units.count h) - 1 > 0 := by omega
    simp only [Heap.decrement?, he, Option.map_some]
    rw [if_pos hmany]
    exact ⟨_, _, rfl⟩
  obtain ⟨n, next, hd⟩ := hd
  obtain ⟨e', he', -, hnext⟩ := Heap.decrement?_entryAt? ho.inOrder hd
  obtain rfl := Option.some.inj (he'.symm.trans he)
  refine ⟨n, next, hd, ho.write_base (Heap.decrement?_inOrder hd ho.inOrder) hb ?_ ?_ ?_⟩
  · intro k hk
    simp [hk]
  · exact fun k hk => ho.borne k (Multiset.mem_add.2 (.inr hk))
  · intro k
    have hmore : ¬e.refcount + (1 + units.count h) = 1 := by omega
    simp only [hnext, if_neg hmore]
    congr 3
    omega

theorem write_own (ho : Overlay base ({(h, e)} + own) units heap) (hnext : next.InOrder)
    (written : Option HeapEntry)
    (hentry : ∀ k, next.entryAt? k = if k = h then written else heap.entryAt? k) :
    Overlay base ((written.elim 0 fun e => {(h, e)}) + own) units next := by
  have hdistinct := ho.distinct
  rw [Multiset.singleton_add, Multiset.map_cons, Multiset.nodup_cons] at hdistinct
  have hbase : base h = none := ho.apart (h, e) (by simp)
  have hother (x : Handle × HeapEntry) (hx : x ∈ own) : x.1 ≠ h := fun hxh =>
    hdistinct.1 (Multiset.mem_map.2 ⟨x, hx, hxh⟩)
  have hrest (k : Handle) (e' : HeapEntry) (hk : heap.entryAt? k = some e') (hb : base k = none)
      (hne : k ≠ h) : (k, e') ∈ own := by
    rcases Multiset.mem_add.1 (ho.complete k e' hk hb) with hx | hx
    · exact absurd (congrArg Prod.fst (Multiset.mem_singleton.1 hx)) hne
    · exact hx
  refine ⟨hnext, ho.positive, ho.borne, ?_, ?_, ?_, ?_, ?_⟩
  · cases written with
    | none => simpa using hdistinct.2
    | some e' => simpa using hdistinct
  · intro x hx
    rcases Multiset.mem_add.1 hx with hx | hx
    · cases written with
      | none => simp at hx
      | some e' =>
        rw [Multiset.mem_singleton.1 hx]
        exact hbase
    · exact ho.apart x (Multiset.mem_add.2 (.inr hx))
  · intro k e' hk
    have hkh : k ≠ h := by
      rintro rfl
      rw [hbase] at hk
      cases hk
    rw [hentry, if_neg hkh]
    exact ho.kept k e' hk
  · intro x hx
    rcases Multiset.mem_add.1 hx with hx | hx
    · cases written with
      | none => simp at hx
      | some e' => rw [Multiset.mem_singleton.1 hx, hentry, if_pos rfl]
    · rw [hentry, if_neg (hother x hx)]
      exact ho.owned x (Multiset.mem_add.2 (.inr hx))
  · intro k e' hk hb
    rw [hentry] at hk
    by_cases hkh : k = h
    · rw [if_pos hkh] at hk
      simp [hk, hkh]
    · rw [if_neg hkh] at hk
      exact Multiset.mem_add.2 (.inr (hrest k e' hk hb hkh))

theorem decrement_own (ho : Overlay base ({(h, ⟨1, p⟩)} + own) units heap) :
    ∃ next, heap.decrement? h = some (.dead p, next) ∧ Overlay base own units next := by
  have he : heap.entryAt? h = some ⟨1, p⟩ := ho.owned (h, ⟨1, p⟩) (by simp)
  have hd : ∃ next, heap.decrement? h = some (.dead p, next) := by simp [Heap.decrement?, he]
  obtain ⟨next, hd⟩ := hd
  obtain ⟨e', he', -, hnext⟩ := Heap.decrement?_entryAt? ho.inOrder hd
  obtain rfl := Option.some.inj (he'.symm.trans he)
  refine ⟨next, hd, ?_⟩
  simpa using ho.write_own (Heap.decrement?_inOrder hd ho.inOrder) none hnext

theorem setPayload_own {n : Nat} (ho : Overlay base ({(h, ⟨n, p⟩)} + own) units heap)
    (q : Payload) : Overlay base ({(h, ⟨n, q⟩)} + own) units (heap.setPayload h q) :=
  ho.write_own (Heap.setPayload_inOrder ho.inOrder h q) (some ⟨n, q⟩)
    (Heap.setPayload_entryAt? (ho.owned (h, ⟨n, p⟩) (by simp)) q)

/-- Writing over the payload of an object of the base writes over it in the base. -/
theorem setPayload_base (ho : Overlay base own units heap) (hb : base h = some e) (q : Payload) :
    Overlay (Function.update base h (some ⟨e.refcount, q⟩)) own units (heap.setPayload h q) := by
  have hentry := Heap.setPayload_entryAt? (ho.kept h e hb) q
  have hother (x : Handle × HeapEntry) (hx : x ∈ own) : x.1 ≠ h := by
    intro hxh
    have hnone := ho.apart x hx
    rw [hxh, hb] at hnone
    cases hnone
  refine ⟨Heap.setPayload_inOrder ho.inOrder h q, ?_, ?_, ho.distinct, ?_, ?_, ?_, ?_⟩
  · intro k e' hk
    by_cases hkh : k = h
    · rw [hkh, Function.update_self, Option.some.injEq] at hk
      rw [← hk]
      exact ho.positive h e hb
    · rw [Function.update_of_ne hkh] at hk
      exact ho.positive k e' hk
  · intro k hk
    by_cases hkh : k = h
    · rw [hkh, Function.update_self]
      exact ⟨_, rfl⟩
    · rw [Function.update_of_ne hkh]
      exact ho.borne k hk
  · intro x hx
    rw [Function.update_of_ne (hother x hx)]
    exact ho.apart x hx
  · intro k e' hk
    rw [hentry]
    by_cases hkh : k = h
    · rw [hkh, Function.update_self, Option.some.injEq] at hk
      rw [if_pos hkh, hkh, ← hk]
    · rw [Function.update_of_ne hkh] at hk
      rw [if_neg hkh]
      exact ho.kept k e' hk
  · intro x hx
    rw [hentry, if_neg (hother x hx)]
    exact ho.owned x hx
  · intro k e' hk hnone
    have hkh : k ≠ h := by
      rintro rfl
      simp at hnone
    rw [hentry, if_neg hkh] at hk
    rw [Function.update_of_ne hkh] at hnone
    exact ho.complete k e' hk hnone

end Overlay

theorem onFault_settles {astray : Prop} {Q : α → World U → Prop} {act : Act U α} {env : Env U}
    {w : World U} (cleanup : Act U Unit) (hact : (act env w).Settles astray Q) :
    (act.onFault cleanup env w).Settles astray Q := by
  unfold Act.onFault
  cases hr : act env w with
  | done a w' =>
    rw [hr] at hact
    exact hact
  | fault c w' =>
    rw [hr] at hact
    dsimp only
    cases cleanup env w' <;> exact hact
  | unfinished =>
    rw [hr] at hact
    exact hact

section

variable {env : Env U} {w : World U}

theorem alloc_overlay (ho : Overlay base own units w.heap) (p : Payload) (env : Env U) :
    ∃ h w', alloc p env w = .done h w' ∧ w'.pending = w.pending ∧
      Overlay base ({(h, ⟨1, p⟩)} + own) units w'.heap := by
  obtain ⟨w', hrun, hpending, hheap⟩ := alloc_run p env w
  exact ⟨_, w', hrun, hpending, hheap ▸ ho.insert p⟩

theorem acquire_overlay (ho : Overlay base own units w.heap) (hb : base h = some e) (env : Env U) :
    ∃ w', acquire h env w = .done h w' ∧ w'.pending = w.pending ∧
      Overlay base own ({h} + units) w'.heap := by
  obtain ⟨n, next, hi, hnext⟩ := ho.increment hb
  obtain ⟨w', hrun, hnoted⟩ := traced_run (.acquired h n) env { w with heap := next }
  obtain ⟨hpending, hheap⟩ := hnoted.kept
  refine ⟨w', ?_, hpending, hheap ▸ hnext⟩
  simp [acquire, bind_run, updateHeap?, hi, hrun, pure_run]

theorem acquireBehind_overlay (hs made : List Handle) (ho : Overlay base own units w.heap)
    (hb : ∀ h ∈ hs, ∃ e, base h = some e) (env : Env U) :
    ∃ w', acquireBehind made hs env w = .done (made ++ hs) w' ∧ w'.pending = w.pending ∧
      Overlay base own (↑hs + units) w'.heap := by
  induction hs generalizing made units w with
  | nil => exact ⟨w, by simp [acquireBehind, pure_run], rfl, by simpa using ho⟩
  | cons h hs ih =>
    obtain ⟨e, he⟩ := hb h List.mem_cons_self
    obtain ⟨w₁, hrun, hpending, ho₁⟩ := acquire_overlay ho he env
    obtain ⟨w₂, hrest, hpending₂, ho₂⟩ :=
      ih (made ++ [h]) ho₁ fun k hk => hb k (List.mem_cons_of_mem h hk)
    refine ⟨w₂, ?_, hpending₂.trans hpending, ho₂.congr rfl ?_⟩
    · rw [acquireBehind, bind_run, holding, onFault_done hrun]
      simpa using hrest
    · rw [← Multiset.cons_coe, ← Multiset.singleton_add]
      abel

theorem acquireAll_overlay (hs : List Handle) (ho : Overlay base own units w.heap)
    (hb : ∀ h ∈ hs, ∃ e, base h = some e) (env : Env U) :
    ∃ w', acquireAll hs env w = .done hs w' ∧ w'.pending = w.pending ∧
      Overlay base own (↑hs + units) w'.heap :=
  acquireBehind_overlay hs [] ho hb env

/-- Releases are the library's own, and so are those they lead to, `n` levels deep. -/
def Env.Deep : Nat → Env U → Prop
  | 0, _ => True
  | n + 1, env => ∃ below : Env U, below.Deep n ∧ ∀ h w, env.release h w = releaseNow h below w

theorem Env.Deep.of_le {n m : Nat} (hd : env.Deep n) (hle : m ≤ n) : env.Deep m := by
  induction m generalizing n env with
  | zero => trivial
  | succ m ih =>
    obtain ⟨n, rfl⟩ : ∃ k, n = k + 1 := ⟨n - 1, by omega⟩
    obtain ⟨below, hbelow, hrelease⟩ := hd
    exact ⟨below, ih hbelow (by omega), hrelease⟩

theorem tie_deep (observe : Log.Event → U → U) (user : Env U → Hooks U) (n : Nat) :
    (Env.tie observe user n).Deep n := by
  induction n with
  | zero => trivial
  | succ n ih => exact ⟨_, ih, fun _ _ => rfl⟩

/-- Units in order: each is the only one on an object made since, with all it owns in turn, or it
is one of those taken on the base. -/
inductive Parts (R : Handle → Multiset (Handle × HeapEntry) → Multiset Handle → Prop) :
    List Handle → Multiset (Handle × HeapEntry) → Multiset Handle → Prop where
  | nil : Parts R [] 0 0
  | own {h : Handle} {hs : List Handle} {S T : Multiset (Handle × HeapEntry)}
      {V W : Multiset Handle} (whole : R h S V) (rest : Parts R hs T W) :
      Parts R (h :: hs) (S + T) (V + W)
  | shared {h : Handle} {hs : List Handle} {T : Multiset (Handle × HeapEntry)}
      {W : Multiset Handle} (rest : Parts R hs T W) : Parts R (h :: hs) T ({h} + W)

def Payload.Drops (p : Payload) : Prop := ∀ d s, p = .native d (some s) → d.dealloc = .drop

/-- An object made since, with one unit, and all it owns, nested at most `n` deep. -/
def Region : Nat → Handle → Multiset (Handle × HeapEntry) → Multiset Handle → Prop
  | 0, _, _, _ => False
  | n + 1, h, T, V =>
    ∃ p S, p.Drops ∧ Parts (Region n) p.units S V ∧ T = {(h, ⟨1, p⟩)} + S

theorem Parts.mono {R R' : Handle → Multiset (Handle × HeapEntry) → Multiset Handle → Prop}
    {hs : List Handle} (hp : Parts R hs T V) (hR : ∀ h T V, R h T V → R' h T V) :
    Parts R' hs T V := by
  induction hp with
  | nil => exact .nil
  | own whole rest ih => exact .own (hR _ _ _ whole) ih
  | shared rest ih => exact .shared ih

theorem Region.of_le {n m : Nat} (hr : Region n h T V) (hle : n ≤ m) : Region m h T V := by
  induction n generalizing m h T V with
  | zero => exact hr.elim
  | succ n ih =>
    obtain ⟨m, rfl⟩ : ∃ k, m = k + 1 := ⟨m - 1, by omega⟩
    obtain ⟨p, S, hdrops, hparts, rfl⟩ := hr
    exact ⟨p, S, hdrops, hparts.mono fun h T V hr => ih hr (by omega), rfl⟩

theorem Parts.append {R : Handle → Multiset (Handle × HeapEntry) → Multiset Handle → Prop}
    {hs ks : List Handle} (hp : Parts R hs S V) (hq : Parts R ks T W) :
    Parts R (hs ++ ks) (S + T) (V + W) := by
  induction hp with
  | nil => simpa using hq
  | own whole rest ih =>
    rw [add_assoc, add_assoc]
    exact .own whole ih
  | shared rest ih =>
    rw [add_assoc]
    exact .shared ih

/-- Units on the base alone are parts of nothing made since. -/
theorem Parts.of_units {R : Handle → Multiset (Handle × HeapEntry) → Multiset Handle → Prop}
    (hs : List Handle) : Parts R hs 0 ↑hs := by
  induction hs with
  | nil => exact .nil
  | cons h hs ih =>
    rw [← Multiset.cons_coe, ← Multiset.singleton_add]
    exact .shared ih

theorem release_shared {n : Nat} (deep : env.Deep (n + 1))
    (ho : Overlay base own ({h} + units) w.heap) :
    ∃ w', release h env w = .done () w' ∧ w'.pending = w.pending ∧
      Overlay base own units w'.heap := by
  obtain ⟨below, -, hrelease⟩ := deep
  obtain ⟨m, next, hd, hnext⟩ := ho.decrement_shared
  obtain ⟨w', hrun, hnoted⟩ := traced_run (.released h m) below { w with heap := next }
  obtain ⟨hpending, hheap⟩ := hnoted.kept
  refine ⟨w', ?_, hpending, hheap ▸ hnext⟩
  simp [release, hrelease, releaseNow, bind_run, updateHeap?, hd, hrun]

theorem dispose_drops (hp : p.Drops) (env : Env U) (w : World U) :
    ∃ w', Noted env w w' ∧ dispose p env w = releaseAll p.units env w' := by
  by_cases hnative : ∃ d s, p = .native d (some s)
  · obtain ⟨d, s, rfl⟩ := hnative
    refine ⟨_, .event .nothing (.stateDropped s.kind.path), ?_⟩
    simp only [dispose, disposeState, hp d s rfl, bind_run, Act.emit]
    rfl
  · refine ⟨w, .nothing, ?_⟩
    unfold dispose
    split
    · exact absurd ⟨_, _, rfl⟩ hnative
    · rfl

theorem parts_release {R : Handle → Multiset (Handle × HeapEntry) → Multiset Handle → Prop}
    {n : Nat} {hs : List Handle} {pending : Option Raised} (deep : env.Deep (n + 1))
    (hR : ∀ h T V own units w, R h T V → Overlay base (T + own) (V + units) w.heap →
      (release h env w).Settles False fun _ w' =>
        w'.pending = w.pending ∧ Overlay base own units w'.heap)
    (hp : Parts R hs T V) (ho : Overlay base (T + own) (V + units) w.heap)
    (hw : w.pending = pending) :
    (releaseAll hs env w).Settles False fun _ w' =>
      w'.pending = pending ∧ Overlay base own units w'.heap := by
  let I (hs : List Handle) (w' : World U) : Prop := w'.pending = pending ∧
    ∃ T V, Parts R hs T V ∧ Overlay base (T + own) (V + units) w'.heap
  have hstep (h : Handle) (hs : List Handle) (w₁ : World U) (hw₁ : I (h :: hs) w₁) :
      (env.release h w₁).Settles False fun _ w' => I hs w' := by
    obtain ⟨hpending, T, V, hparts, ho⟩ := hw₁
    cases hparts with
    | @own _ _ S T V W whole rest =>
      rw [add_assoc, add_assoc] at ho
      exact (hR h S V _ _ w₁ whole ho).mono fun _ w₂ _ h₂ =>
        ⟨h₂.1.trans hpending, T, W, rest, h₂.2⟩
    | @shared _ _ T W rest =>
      rw [add_assoc] at ho
      obtain ⟨w₂, hrun, hpending₂, ho₂⟩ := release_shared deep ho
      rw [show env.release h w₁ = _ from hrun]
      exact ⟨hpending₂.trans hpending, T, W, rest, ho₂⟩
  refine (releaseAll_rule hstep hs ⟨hw, T, V, hp, ho⟩).mono fun _ w' _ h => ?_
  obtain ⟨hpending, T, V, hnil, ho⟩ := h
  cases hnil
  exact ⟨hpending, by simpa using ho⟩

/-- Giving back the only unit on an object gives back all it owns. -/
theorem region_release {n : Nat} (deep : env.Deep (n + 1)) (hr : Region n h T V)
    (ho : Overlay base (T + own) (V + units) w.heap) :
    (release h env w).Settles False fun _ w' =>
      w'.pending = w.pending ∧ Overlay base own units w'.heap := by
  induction n generalizing env h T V own units w with
  | zero => exact hr.elim
  | succ n ih =>
    obtain ⟨p, S, hdrops, hparts, rfl⟩ := hr
    obtain ⟨below, hbelow, hrelease⟩ := deep
    rw [add_assoc] at ho
    obtain ⟨next, hd, hnext⟩ := ho.decrement_own
    obtain ⟨w₁, hrun, hnoted⟩ :=
      traced_run (.deallocated h p.typeName) below { w with heap := next }
    obtain ⟨hpending, hheap⟩ := hnoted.kept
    obtain ⟨w₂, hnoted₂, hdispose⟩ := dispose_drops hdrops below w₁
    obtain ⟨hpending₂, hheap₂⟩ := hnoted₂.kept
    have hr : release h env w = releaseAll p.units below w₂ := by
      simp [release, hrelease, releaseNow, bind_run, updateHeap?, hd, hrun, hdispose]
    rw [hr]
    refine parts_release hbelow (fun h T V own units w hr ho => ih hbelow hr ho) hparts ?_
      (hpending₂.trans hpending)
    rw [hheap₂, hheap]
    exact hnext

theorem releaseAll_overlay {n : Nat} {hs : List Handle} (deep : env.Deep (n + 1))
    (hp : Parts (Region n) hs T V) (ho : Overlay base (T + own) (V + units) w.heap) :
    ∃ w', releaseAll hs env w = .done () w' ∧ w'.pending = w.pending ∧
      Overlay base own units w'.heap := by
  obtain ⟨⟨⟩, w', hrun, h⟩ := (parts_release deep
    (fun h T V own units w hr ho => region_release deep hr ho) hp ho rfl).exists_done
  exact ⟨w', hrun, h⟩

theorem releaseAll_shared (hs : List Handle) (deep : env.Deep 1)
    (ho : Overlay base own (↑hs + units) w.heap) :
    ∃ w', releaseAll hs env w = .done () w' ∧ w'.pending = w.pending ∧
      Overlay base own units w'.heap :=
  releaseAll_overlay deep (.of_units hs) (ho.congr (zero_add own).symm rfl)

theorem release_overlay {n : Nat} (deep : env.Deep (n + 1)) (hp : Parts (Region n) [h] T V)
    (ho : Overlay base (T + own) (V + units) w.heap) :
    ∃ w', release h env w = .done () w' ∧ w'.pending = w.pending ∧
      Overlay base own units w'.heap := by
  cases hp with
  | @own _ _ S T V W whole rest =>
    cases rest
    rw [add_zero, add_zero] at ho
    obtain ⟨⟨⟩, w', hrun, h⟩ := (region_release deep whole ho).exists_done
    exact ⟨w', hrun, h⟩
  | @shared _ _ T W rest =>
    cases rest
    rw [zero_add, add_zero] at ho
    exact release_shared deep ho

/-- An object whose units are all on the base takes nothing else along. -/
theorem Region.of_units (hdrops : p.Drops) (h : Handle) : Region 1 h {(h, ⟨1, p⟩)} ↑p.units :=
  ⟨p, 0, hdrops, .of_units p.units, by simp⟩

theorem Parts.single {R : Handle → Multiset (Handle × HeapEntry) → Multiset Handle → Prop}
    (hr : R h T V) : Parts R [h] T V := by
  simpa using Parts.own hr .nil

end

end Causeway
