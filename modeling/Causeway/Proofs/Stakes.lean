import Causeway.Proofs.Overlay
/-!
# Stakes

A pass over a text makes an object of every character, and what is converted of these may share
them. So what a converted value owns is units on the base and units on texts made since, any number
of them on each; the objects that a walk has to itself stay beside these.
-/
set_option autoImplicit false

namespace Causeway

open Act

variable {U : Type} {env : Env U} {base : Handle → Option HeapEntry}
  {own : Multiset (Handle × HeapEntry)} {units : Multiset Handle} {heap : Heap} {w : World U}
  {h : Handle} {p : Payload} {n : Nat}

namespace Overlay

theorem increment_own (ho : Overlay base ({(h, ⟨n, p⟩)} + own) units heap) :
    ∃ m next, heap.increment? h = some (m, next) ∧
      Overlay base ({(h, ⟨n + 1, p⟩)} + own) units next := by
  have he : heap.entryAt? h = some ⟨n, p⟩ := ho.owned (h, ⟨n, p⟩) (by simp)
  obtain ⟨m, next, hi⟩ : ∃ m next, heap.increment? h = some (m, next) := by
    simp [Heap.increment?, he]
  obtain ⟨e, he', hnext⟩ := Heap.increment?_entryAt? hi
  obtain rfl := Option.some.inj (he'.symm.trans he)
  exact ⟨m, next, hi, ho.write_own (Heap.increment?_inOrder hi ho.inOrder) (some ⟨n + 1, p⟩) hnext⟩

theorem decrement_own_shared (ho : Overlay base ({(h, ⟨n + 1, p⟩)} + own) units heap)
    (hn : n ≠ 0) :
    ∃ m next, heap.decrement? h = some (.alive m, next) ∧
      Overlay base ({(h, ⟨n, p⟩)} + own) units next := by
  have he : heap.entryAt? h = some ⟨n + 1, p⟩ := ho.owned (h, ⟨n + 1, p⟩) (by simp)
  obtain ⟨m, next, hd⟩ : ∃ m next, heap.decrement? h = some (.alive m, next) := by
    have hmany : n + 1 - 1 > 0 := by omega
    simp only [Heap.decrement?, he, Option.map_some]
    rw [if_pos hmany]
    exact ⟨_, _, rfl⟩
  obtain ⟨e, he', -, hnext⟩ := Heap.decrement?_entryAt? ho.inOrder hd
  obtain rfl := Option.some.inj (he'.symm.trans he)
  have hmore : ¬ n + 1 = 1 := by omega
  simp only [if_neg hmore] at hnext
  exact ⟨m, next, hd, ho.write_own (Heap.decrement?_inOrder hd ho.inOrder) (some ⟨n, p⟩) hnext⟩

end Overlay

def texts (units : Multiset (Handle × String)) : Multiset (Handle × HeapEntry) :=
  units.dedup.map fun t => (t.1, ⟨units.count t, .str t.2⟩)

theorem texts_add (t : Handle × String) (K : Multiset (Handle × String)) :
    texts ({t} + K) =
      {(t.1, ⟨K.count t + 1, .str t.2⟩)} + texts (K.filter fun u => u ≠ t) := by
  have hdedup : ({t} + K).dedup = t ::ₘ (K.filter fun u => u ≠ t).dedup := by
    refine (Multiset.Nodup.ext (Multiset.nodup_dedup _) ?_).2 fun u => ?_
    · simp
    · by_cases hu : u = t <;> simp [hu]
  rw [texts, hdedup, Multiset.map_cons, ← Multiset.singleton_add, texts]
  congr 1
  · simp
  · refine Multiset.map_congr rfl fun u hu => ?_
    have hne : u ≠ t := (Multiset.mem_filter.1 (Multiset.mem_dedup.1 hu)).2
    simp [hne]

theorem texts_filter_of_notMem {t : Handle × String} {K : Multiset (Handle × String)}
    (ht : t ∉ K) : texts (K.filter fun u => u ≠ t) = texts K := by
  rw [Multiset.filter_eq_self.2]
  rintro u hu rfl
  exact ht hu

/-- What is held on a text apart from what is held on the others. -/
theorem texts_of_mem {t : Handle × String} {K : Multiset (Handle × String)} (ht : t ∈ K) :
    texts K = {(t.1, ⟨K.count t, .str t.2⟩)} + texts (K.filter fun u => u ≠ t) := by
  obtain ⟨K, rfl⟩ : ∃ K', K = {t} + K' := Multiset.exists_cons_of_mem ht
  rw [texts_add]
  simp [Multiset.filter_singleton]

/-- A unit on an object of the base, or on a text made since. -/
inductive Stake where
  | known (h : Handle)
  | text (h : Handle) (s : String)
deriving DecidableEq

namespace Stake

def handle : Stake → Handle
  | known h | text h _ => h

def known? : Stake → Option Handle
  | known h => some h
  | text _ _ => none

def text? : Stake → Option (Handle × String)
  | known _ => none
  | text h s => some (h, s)

variable {stakes : Multiset Stake} {s : String}

@[simp] theorem filterMap_known?_known :
    (known h ::ₘ stakes).filterMap known? = h ::ₘ stakes.filterMap known? :=
  Multiset.filterMap_cons_some _ _ _ rfl

@[simp] theorem filterMap_known?_text :
    (text h s ::ₘ stakes).filterMap known? = stakes.filterMap known? :=
  Multiset.filterMap_cons_none _ _ rfl

@[simp] theorem filterMap_text?_known :
    (known h ::ₘ stakes).filterMap text? = stakes.filterMap text? :=
  Multiset.filterMap_cons_none _ _ rfl

@[simp] theorem filterMap_text?_text :
    (text h s ::ₘ stakes).filterMap text? = (h, s) ::ₘ stakes.filterMap text? :=
  Multiset.filterMap_cons_some _ _ _ rfl

theorem mem_text? : (h, s) ∈ stakes.filterMap text? ↔ text h s ∈ stakes := by
  rw [Multiset.mem_filterMap]
  constructor
  · rintro ⟨x, hx, hx'⟩
    cases x with
    | known k => cases hx'
    | text k r =>
      cases hx'
      exact hx
  · exact fun hx => ⟨_, hx, rfl⟩

/-- The object is there to be borrowed: it is of the base, or held. -/
def Stands (base : Handle → Option HeapEntry) (stakes : Multiset Stake) : Stake → Prop
  | .known h => ∃ e, base h = some e
  | .text h s => .text h s ∈ stakes

def Holds (base : Handle → Option HeapEntry) : Stake → Payload → Prop
  | .known h, p => ∃ n, base h = some ⟨n, p⟩
  | .text _ s, p => p = .str s

variable {base : Handle → Option HeapEntry} {x : Stake} {stakes' : Multiset Stake}

theorem Holds.stands (hx : x.Holds base p) (hmem : x ∈ stakes) : x.Stands base stakes := by
  cases x with
  | known h =>
    obtain ⟨n, hn⟩ := hx
    exact ⟨_, hn⟩
  | text h s => exact hmem

theorem Stands.mono (hx : x.Stands base stakes) (hsub : stakes ≤ stakes') :
    x.Stands base stakes' := by
  cases x with
  | known h => exact hx
  | text h s => exact Multiset.mem_of_le hsub hx

end Stake

/-- The base, what is owned beside it, and units held on the base and on texts made since. -/
def Staked (base : Handle → Option HeapEntry) (own : Multiset (Handle × HeapEntry))
    (stakes : Multiset Stake) (heap : Heap) : Prop :=
  Overlay base (texts (stakes.filterMap Stake.text?) + own) (stakes.filterMap Stake.known?) heap

namespace Staked

variable {stakes stakes' : Multiset Stake} {x : Stake} {s : String}

theorem start (ho : heap.InOrder) : Staked heap.entryAt? 0 0 heap :=
  Overlay.start ho

theorem congr (hs : Staked base own stakes heap) (h : stakes = stakes') :
    Staked base own stakes' heap := h ▸ hs

theorem known_iff : Staked base own (.known h ::ₘ stakes) heap ↔
    Overlay base (texts (stakes.filterMap Stake.text?) + own)
      ({h} + stakes.filterMap Stake.known?) heap := by
  simp [Staked]

theorem text_iff : Staked base own (.text h s ::ₘ stakes) heap ↔
    Overlay base ({(h, ⟨(stakes.filterMap Stake.text?).count (h, s) + 1, .str s⟩)} +
      (texts ((stakes.filterMap Stake.text?).filter fun u => u ≠ (h, s)) + own))
      (stakes.filterMap Stake.known?) heap := by
  rw [Staked, Stake.filterMap_text?_text, Stake.filterMap_known?_text, ← Multiset.singleton_add,
    texts_add, add_assoc]

theorem of_mem_text (hs : Staked base own stakes heap) (hx : .text h s ∈ stakes) :
    Overlay base ({(h, ⟨(stakes.filterMap Stake.text?).count (h, s), .str s⟩)} +
      (texts ((stakes.filterMap Stake.text?).filter fun u => u ≠ (h, s)) + own))
      (stakes.filterMap Stake.known?) heap := by
  rw [← add_assoc, ← texts_of_mem (Stake.mem_text?.2 hx)]
  exact hs

theorem add_text (hs : Overlay base ({(h, ⟨1, .str s⟩)} +
    (texts (stakes.filterMap Stake.text?) + own)) (stakes.filterMap Stake.known?) heap) :
    Staked base own (.text h s ::ₘ stakes) heap := by
  have hnew : (h, s) ∉ stakes.filterMap Stake.text? := by
    intro hmem
    have hdistinct := hs.distinct
    rw [Multiset.singleton_add, Multiset.map_cons, Multiset.nodup_cons] at hdistinct
    have hheld : (h, ⟨(stakes.filterMap Stake.text?).count (h, s), .str s⟩) ∈
        texts (stakes.filterMap Stake.text?) :=
      Multiset.mem_map.2 ⟨(h, s), Multiset.mem_dedup.2 hmem, rfl⟩
    exact hdistinct.1 (Multiset.mem_map.2 ⟨_, Multiset.mem_add.2 (.inl hheld), rfl⟩)
  rw [text_iff, texts_filter_of_notMem hnew, Multiset.count_eq_zero_of_notMem hnew]
  exact hs

theorem payload? (hs : Staked base own stakes heap) (hx : x.Stands base stakes)
    (hp : x.Holds base p) : heap.payload? x.handle = some p := by
  cases x with
  | known h =>
    obtain ⟨n, hn⟩ := hp
    exact Overlay.payload?_base hs hn
  | text h s =>
    cases hp
    exact (hs.of_mem_text hx).payload?_own
      (Multiset.mem_add.2 (.inl (Multiset.mem_singleton_self _)))

/-- An object that is owned whole may be looked at among the others. -/
theorem own_iff {e : HeapEntry} : Staked base ({(h, e)} + own) stakes heap ↔
    Overlay base ({(h, e)} + (texts (stakes.filterMap Stake.text?) + own))
      (stakes.filterMap Stake.known?) heap := by
  rw [Staked, add_left_comm]

end Staked

section

variable {stakes : Multiset Stake} {x : Stake}

theorem acquire_staked (hs : Staked base own stakes w.heap) (hx : x.Stands base stakes)
    (env : Env U) :
    ∃ w', acquire x.handle env w = .done x.handle w' ∧ w'.pending = w.pending ∧
      Staked base own (x ::ₘ stakes) w'.heap := by
  cases x with
  | known h =>
    obtain ⟨e, hb⟩ := hx
    obtain ⟨w', hrun, hpending, ho⟩ := acquire_overlay hs hb env
    exact ⟨w', hrun, hpending, Staked.known_iff.2 ho⟩
  | text h s =>
    obtain ⟨n, next, hi, hnext⟩ := (hs.of_mem_text hx).increment_own
    obtain ⟨w', hrun, hnoted⟩ := traced_run (.acquired h n) env { w with heap := next }
    obtain ⟨hpending, hheap⟩ := hnoted.kept
    refine ⟨w', ?_, hpending, Staked.text_iff.2 (hheap ▸ hnext)⟩
    simp [acquire, bind_run, updateHeap?, hi, hrun, pure_run, Stake.handle]

theorem acquireBehind_staked (xs : List Stake) (made : List Handle)
    (hs : Staked base own stakes w.heap) (hx : ∀ x ∈ xs, x.Stands base stakes) (env : Env U) :
    ∃ w', acquireBehind made (xs.map Stake.handle) env w = .done (made ++ xs.map Stake.handle) w' ∧
      w'.pending = w.pending ∧ Staked base own (↑xs + stakes) w'.heap := by
  induction xs generalizing made stakes w with
  | nil => exact ⟨w, by simp [acquireBehind, pure_run], rfl, by simpa using hs⟩
  | cons x xs ih =>
    obtain ⟨w₁, hrun, hpending, hs₁⟩ := acquire_staked hs (hx x List.mem_cons_self) env
    obtain ⟨w₂, hrest, hpending₂, hs₂⟩ := ih (made ++ [x.handle]) hs₁ fun y hy =>
      (hx y (List.mem_cons_of_mem x hy)).mono (Multiset.le_cons_self _ _)
    refine ⟨w₂, ?_, hpending₂.trans hpending, hs₂.congr ?_⟩
    · rw [List.map_cons, acquireBehind, bind_run, holding, onFault_done hrun]
      simpa using hrest
    · rw [Multiset.add_cons, ← Multiset.cons_coe, Multiset.cons_add]

theorem acquireAll_staked (xs : List Stake) (hs : Staked base own stakes w.heap)
    (hx : ∀ x ∈ xs, x.Stands base stakes) (env : Env U) :
    ∃ w', acquireAll (xs.map Stake.handle) env w = .done (xs.map Stake.handle) w' ∧
      w'.pending = w.pending ∧ Staked base own (↑xs + stakes) w'.heap :=
  acquireBehind_staked xs [] hs hx env

/-- With other units on a text one of them is given back alone, and the last one takes it along. -/
theorem release_staked (deep : env.Deep 1) (hs : Staked base own (x ::ₘ stakes) w.heap) :
    ∃ w', release x.handle env w = .done () w' ∧ w'.pending = w.pending ∧
      Staked base own stakes w'.heap := by
  cases x with
  | known h => exact release_shared deep (Staked.known_iff.1 hs)
  | text h s =>
    obtain ⟨below, -, hrelease⟩ := deep
    have ho := Staked.text_iff.1 hs
    by_cases hmem : (h, s) ∈ stakes.filterMap Stake.text?
    · obtain ⟨m, next, hd, hnext⟩ :=
        ho.decrement_own_shared (Multiset.count_pos.2 hmem).ne'
      obtain ⟨w', hrun, hnoted⟩ := traced_run (.released h m) below { w with heap := next }
      obtain ⟨hpending, hheap⟩ := hnoted.kept
      refine ⟨w', ?_, hpending, ?_⟩
      · simp [release, hrelease, releaseNow, bind_run, updateHeap?, hd, hrun, Stake.handle]
      · rw [Staked, texts_of_mem hmem, add_assoc, hheap]
        exact hnext
    · rw [Multiset.count_eq_zero_of_notMem hmem] at ho
      obtain ⟨next, hd, hnext⟩ := ho.decrement_own
      obtain ⟨w', hrun, hnoted⟩ := traced_run (.deallocated h "str") below { w with heap := next }
      obtain ⟨hpending, hheap⟩ := hnoted.kept
      refine ⟨w', ?_, hpending, ?_⟩
      · simp [release, hrelease, releaseNow, bind_run, updateHeap?, hd, hrun, Stake.handle,
          dispose, releaseAll, Payload.typeName, Payload.units, pure_run]
      · rw [Staked, ← texts_filter_of_notMem hmem, hheap]
        exact hnext

theorem releaseAll_staked (xs : List Stake) (deep : env.Deep 1)
    (hs : Staked base own (↑xs + stakes) w.heap) :
    ∃ w', releaseAll (xs.map Stake.handle) env w = .done () w' ∧ w'.pending = w.pending ∧
      Staked base own stakes w'.heap := by
  induction xs generalizing w with
  | nil => exact ⟨w, rfl, rfl, by simpa using hs⟩
  | cons x xs ih =>
    rw [← Multiset.cons_coe, Multiset.cons_add] at hs
    obtain ⟨w₁, hrun, hpending, hs₁⟩ := release_staked deep hs
    obtain ⟨w₂, hrest, hpending₂, hs₂⟩ := ih hs₁
    refine ⟨w₂, ?_, hpending₂.trans hpending, hs₂⟩
    rw [List.map_cons, releaseAll, bind_run, onFault_done hrun]
    exact hrest

/-- An object with one unit takes along the units that it owns. -/
theorem release_whole_staked (deep : env.Deep 2) (hdrops : p.Drops) (xs : List Stake)
    (hunits : p.units = xs.map Stake.handle)
    (hs : Staked base ({(h, ⟨1, p⟩)} + own) (↑xs + stakes) w.heap) :
    ∃ w', release h env w = .done () w' ∧ w'.pending = w.pending ∧
      Staked base own stakes w'.heap := by
  obtain ⟨below, hbelow, hrelease⟩ := deep
  obtain ⟨next, hd, hnext⟩ := (Staked.own_iff.1 hs).decrement_own
  obtain ⟨w₁, hrun, hnoted⟩ := traced_run (.deallocated h p.typeName) below { w with heap := next }
  obtain ⟨hpending, hheap⟩ := hnoted.kept
  obtain ⟨w₂, hnoted₂, hdispose⟩ := dispose_drops hdrops below w₁
  obtain ⟨hpending₂, hheap₂⟩ := hnoted₂.kept
  have hs₂ : Staked base own (↑xs + stakes) w₂.heap := by
    rw [hheap₂, hheap]
    exact hnext
  obtain ⟨w₃, hall, hpending₃, hs₃⟩ := releaseAll_staked xs hbelow hs₂
  refine ⟨w₃, ?_, hpending₃.trans (hpending₂.trans hpending), hs₃⟩
  rw [← hall, ← hunits]
  simp [release, hrelease, releaseNow, bind_run, updateHeap?, hd, hrun, hdispose]

end

/-- The heap with units taken since: objects of then have these beside their own, and whatever else
is alive has no others. -/
structure Heap.Gains (heap : Heap) (units : List Handle) (next : Heap) : Prop where
  inOrder : next.InOrder
  kept : ∀ h e, heap.entryAt? h = some e →
    next.entryAt? h = some ⟨e.refcount + units.count h, e.payload⟩
  made : ∀ h e, heap.entryAt? h = none → next.entryAt? h = some e → e.refcount = units.count h

theorem count_handles (L : List Stake) (h : Handle) : (L.map Stake.handle).count h =
    ((↑L : Multiset Stake).filterMap Stake.known?).count h +
      (((↑L : Multiset Stake).filterMap Stake.text?).map Prod.fst).count h := by
  induction L with
  | nil => rfl
  | cons x L ih =>
    have hif : (if x.handle == h then 1 else 0) = if h = x.handle then 1 else 0 :=
      if_congr (beq_iff_eq.trans eq_comm) rfl rfl
    rw [List.map_cons, List.count_cons, ih, ← Multiset.cons_coe, hif]
    cases x with
    | known k =>
      rw [Stake.filterMap_known?_known, Stake.filterMap_text?_known, Multiset.count_cons,
        add_right_comm]
      rfl
    | text k s =>
      rw [Stake.filterMap_known?_text, Stake.filterMap_text?_text, Multiset.map_cons,
        Multiset.count_cons, add_assoc]
      rfl

theorem Staked.gains {L : List Stake} {next : Heap} (hs : Staked heap.entryAt? 0 ↑L next) :
    heap.Gains (L.map Stake.handle) next := by
  have ho : Overlay heap.entryAt? (texts ((↑L : Multiset Stake).filterMap Stake.text?))
      ((↑L : Multiset Stake).filterMap Stake.known?) next := by simpa [Staked] using hs
  have hmem {t : Handle × String} (ht : t ∈ (↑L : Multiset Stake).filterMap Stake.text?) :
      (t.1, ⟨((↑L : Multiset Stake).filterMap Stake.text?).count t, .str t.2⟩) ∈
        texts ((↑L : Multiset Stake).filterMap Stake.text?) :=
    Multiset.mem_map.2 ⟨t, Multiset.mem_dedup.2 ht, rfl⟩
  refine ⟨ho.inOrder, fun h e he => ?_, fun h e hnone he => ?_⟩
  · have hnot : h ∉ ((↑L : Multiset Stake).filterMap Stake.text?).map Prod.fst := by
      intro hh
      obtain ⟨t, ht, rfl⟩ := Multiset.mem_map.1 hh
      have hnone := ho.apart _ (hmem ht)
      rw [he] at hnone
      cases hnone
    rw [count_handles, Multiset.count_eq_zero_of_notMem hnot, add_zero]
    exact ho.kept h e he
  · have hnot : h ∉ (↑L : Multiset Stake).filterMap Stake.known? := by
      intro hh
      obtain ⟨e', he'⟩ := ho.borne h hh
      rw [hnone] at he'
      cases he'
    obtain ⟨⟨k, s⟩, hks, heq⟩ := Multiset.mem_map.1 (ho.complete h e he hnone)
    cases heq
    have hks := Multiset.mem_dedup.1 hks
    -- one object has one text
    have hsame : ∀ t ∈ (↑L : Multiset Stake).filterMap Stake.text?, k = t.1 ↔ (k, s) = t := by
      intro t ht
      refine ⟨fun hk => ?_, fun hk => congrArg Prod.fst hk⟩
      have he' := ho.owned _ (hmem ht)
      have he'' := ho.owned _ (hmem hks)
      dsimp only at he' he''
      rw [← hk, he''] at he'
      have hpayload := congrArg HeapEntry.payload (Option.some.inj he')
      exact Prod.ext hk (Payload.str.inj hpayload)
    rw [count_handles, Multiset.count_eq_zero_of_notMem hnot, zero_add, Multiset.count_map,
      Multiset.filter_congr hsame, ← Multiset.count_eq_card_filter_eq]

end Causeway
