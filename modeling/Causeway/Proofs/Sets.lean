import Causeway.Proofs.Elements
import Causeway.Proofs.GivingBack
/-!
# Sets

A set takes over the first item of each key and gives the others back, in the order they come in.
Giving back what is hashable runs no user code: it is a scalar, or a tuple of what is hashable. So
up to the first item that is not hashable everything is settled by the keys alone. From there on
all items are given back, those already kept and those never looked at included, and what has a
dealloc slot among them runs it with the type error pending.
-/
set_option autoImplicit false

namespace Causeway

open Act

section

variable {α κ : Type} [DecidableEq κ] {key key' : α → κ} {before items : List α}

def leaders (key : α → κ) : (before items : List α) → List α
  | _, [] => []
  | before, a :: items =>
    if ∃ b ∈ before, key b = key a then leaders key (before ++ [a]) items
    else a :: leaders key (before ++ [a]) items

def followers (key : α → κ) : (before items : List α) → List α
  | _, [] => []
  | before, a :: items =>
    if ∃ b ∈ before, key b = key a then a :: followers key (before ++ [a]) items
    else followers key (before ++ [a]) items

theorem leaders_sublist : (leaders key before items).Sublist items := by
  induction items generalizing before with
  | nil => exact .slnil
  | cons a items ih =>
    rw [leaders]
    split
    · exact ih.cons a
    · exact ih.cons_cons a

theorem leaders_append_followers (key : α → κ) (before items : List α) :
    (leaders key before items ++ followers key before items).Perm items := by
  induction items generalizing before with
  | nil => exact .nil
  | cons a items ih =>
    rw [leaders, followers]
    split
    · exact List.perm_middle.trans ((ih _).cons a)
    · exact (ih _).cons a

theorem leaders_fresh : ∀ a ∈ leaders key before items, ∀ b ∈ before, key b ≠ key a := by
  induction items generalizing before with
  | nil => simp [leaders]
  | cons c items ih =>
    intro a ha b hb
    have hrest : a ∈ leaders key (before ++ [c]) items → key b ≠ key a := fun ha =>
      ih a ha b (List.mem_append_left _ hb)
    rw [leaders] at ha
    split at ha
    · exact hrest ha
    · rename_i hfresh
      obtain rfl | ha := List.mem_cons.1 ha
      · exact fun heq => hfresh ⟨b, hb, heq⟩
      · exact hrest ha

theorem leaders_pairwise (key : α → κ) (before items : List α) :
    (leaders key before items).Pairwise fun a b => key a ≠ key b := by
  induction items generalizing before with
  | nil => exact .nil
  | cons c items ih =>
    rw [leaders]
    split
    · exact ih _
    · exact .cons (fun a ha => leaders_fresh a ha c (by simp)) (ih _)

theorem exists_leader (before : List α) :
    ∀ a ∈ items, ∃ b ∈ before ++ leaders key before items, key b = key a := by
  induction items generalizing before with
  | nil => simp
  | cons c items ih =>
    intro a ha
    rw [leaders]
    split
    · rename_i hfollows
      obtain ⟨d, hd, heq⟩ := hfollows
      obtain ⟨b, hb, hkey⟩ : ∃ b ∈ before ++ [c] ++ leaders key (before ++ [c]) items,
          key b = key a := by
        obtain rfl | ha := List.mem_cons.1 ha
        · exact ⟨a, by simp, rfl⟩
        · exact ih (before ++ [c]) a ha
      -- what came in between has its own leader before it
      simp only [List.append_assoc, List.mem_append, List.mem_singleton] at hb
      obtain hb | rfl | hb := hb
      · exact ⟨b, by simp [hb], hkey⟩
      · exact ⟨d, by simp [hd], heq.trans hkey⟩
      · exact ⟨b, by simp [hb], hkey⟩
    · obtain rfl | ha := List.mem_cons.1 ha
      · exact ⟨a, by simp, rfl⟩
      · obtain ⟨b, hb, hkey⟩ := ih (before ++ [c]) a ha
        exact ⟨b, by simpa using hb, hkey⟩

theorem leaders_eq_self (hdistinct : items.Pairwise fun a b => key a ≠ key b)
    (hfresh : ∀ a ∈ items, ∀ b ∈ before, key b ≠ key a) : leaders key before items = items := by
  induction items generalizing before with
  | nil => rfl
  | cons c items ih =>
    have hc : ¬ ∃ b ∈ before, key b = key c := fun ⟨b, hb, heq⟩ =>
      hfresh c List.mem_cons_self b hb heq
    rw [leaders, if_neg hc, ih hdistinct.of_cons fun a ha b hb => ?_]
    obtain hb | hb := List.mem_append.1 hb
    · exact hfresh a (List.mem_cons_of_mem _ ha) b hb
    · rw [List.mem_singleton.1 hb]
      exact List.rel_of_pairwise_cons hdistinct ha

end

variable {U : Type} {env : Env U} {w : World U} {E : Multiset Handle} {heap : Heap}
  {items rest kept : List Handle} {h : Handle} {n : Nat}

theorem Heap.Hashable.units (hh : heap.Hashable h) {p : Payload}
    (found : heap.payload? h = some p) :
    (∀ k ∈ p.units, heap.Hashable k) ∧ p.Drops := by
  cases hh with
  | scalar found' key =>
    cases found.symm.trans found'
    cases p with
    | none | bool b | int i | float x | str s =>
      exact ⟨by simp [Payload.units], by simp [Payload.Drops]⟩
    | _ => cases key
  | tuple found' items =>
    cases found.symm.trans found'
    exact ⟨items, by simp [Payload.Drops]⟩

theorem Heap.Hashable.silent (hh : heap.Hashable h) : heap.Silent h := by
  intro k p reach found
  have hk : heap.Hashable k := by
    clear found
    induction reach with
    | refl => exact hh
    | tail _ last ih =>
      obtain ⟨q, hq, hmem⟩ := last
      exact (ih.units hq).1 _ hmem
  exact (hk.units found).2

theorem release_hashable (deep : env.Deep n) (hx : Exact .blank ({h} + E) w)
    (hashable : w.heap.Hashable h) (hlive : w.heap.stats.live ≤ n) :
    ∃ w', release h env w = .done () w' ∧ w'.pending = w.pending ∧ w.heap.Shrinks w'.heap ∧
      Exact .blank E w' := by
  obtain ⟨w', hrun, hpending, hdrains⟩ := release_givesBack deep hx hashable.silent hlive
  have hx' := hdrains.exact hx
  rw [zero_add] at hx'
  exact ⟨w', hrun, hpending, (hdrains.shrinks hx.inOrder).1, hx'⟩

theorem keyOf_run {found : Option Key} (hkey : w.heap.keyAt h = some found) :
    keyOf h env w = .done found w := by
  unfold keyOf
  rw [bind_run]
  change (ofOption (w.heap.keyAt h) : Act U (Option Key)) env w = _
  rw [hkey]
  rfl

/-- Hashable items are dealt with by their keys, whatever comes after them: what keeping an item and
giving one back preserve, all of it preserves. -/
theorem uniqueItems_rule (heap : Heap) {I : List Handle → List Handle → World U → Prop}
    (key : ∀ h items kept w, I (h :: items) kept w → heap.Hashable h →
      w.heap.keyAt h = heap.keyAt h)
    (keep : ∀ h items kept w, I (h :: items) kept w → I items (kept ++ [h]) w)
    (giveBack : ∀ h items kept w, I (h :: items) kept w → heap.Hashable h →
      ∃ w', release h env w = .done () w' ∧ I items kept w')
    (before : List Handle) (keys : List Key) (kept rest : List Handle)
    (start : I (items ++ rest) kept w) (hashable : ∀ h ∈ items, heap.Hashable h)
    (hkeys : ∀ k, k ∈ keys ↔ ∃ b ∈ before, heap.keyAt b = some (some k)) :
    ∃ keys' w', uniqueItems (items ++ rest) keys kept env w =
        uniqueItems rest keys' (kept ++ leaders heap.keyAt before items) env w' ∧
      releaseAll (followers heap.keyAt before items) env w = .done () w' ∧
      I rest (kept ++ leaders heap.keyAt before items) w' := by
  induction items generalizing before keys kept w with
  | nil => exact ⟨keys, w, by simp [leaders], rfl, by simpa [leaders] using start⟩
  | cons h items ih =>
    obtain ⟨k, hkey⟩ := Heap.hashable_iff.1 (hashable h List.mem_cons_self)
    have hkey' := (key h _ kept w start (hashable h List.mem_cons_self)).trans hkey
    have hrest : ∀ k ∈ items, heap.Hashable k := fun k hk => hashable k (List.mem_cons_of_mem _ hk)
    have hcontains : keys.contains k = true ↔ ∃ b ∈ before, heap.keyAt b = heap.keyAt h := by
      rw [List.contains_iff_mem, hkeys, hkey]
    have hunfold : uniqueItems (h :: items ++ rest) keys kept env w =
        (if keys.contains k then (do
            holding (items ++ rest ++ kept) (release h)
            uniqueItems (items ++ rest) keys kept)
          else uniqueItems (items ++ rest) (keys ++ [k]) (kept ++ [h]) : Act U _) env w := by
      rw [List.cons_append, uniqueItems, bind_run, keyOf_run hkey']
    by_cases hfollows : ∃ b ∈ before, heap.keyAt b = heap.keyAt h
    · rw [leaders, followers, if_pos hfollows, if_pos hfollows, hunfold,
        if_pos (hcontains.2 hfollows)]
      obtain ⟨w₁, hrun, h₁⟩ := giveBack h _ kept w start (hashable h List.mem_cons_self)
      have hkeys₁ : ∀ l, l ∈ keys ↔ ∃ b ∈ before ++ [h], heap.keyAt b = some (some l) := fun l => by
        rw [hkeys]
        refine ⟨fun ⟨b, hb, heq⟩ => ⟨b, List.mem_append_left _ hb, heq⟩, fun ⟨b, hb, heq⟩ => ?_⟩
        obtain hb | hb := List.mem_append.1 hb
        · exact ⟨b, hb, heq⟩
        · obtain ⟨d, hd, hdkey⟩ := hfollows
          exact ⟨d, hd, hdkey.trans (List.mem_singleton.1 hb ▸ heq)⟩
      obtain ⟨keys', w', hunique, hreleased, h'⟩ := ih (before ++ [h]) keys kept h₁ hrest hkeys₁
      refine ⟨keys', w', ?_, ?_, h'⟩
      · rw [bind_run, holding, onFault_done hrun]
        exact hunique
      · rw [releaseAll, bind_run, onFault_done hrun]
        exact hreleased
    · rw [leaders, followers, if_neg hfollows, if_neg hfollows, hunfold,
        if_neg fun hmem => hfollows (hcontains.1 hmem)]
      have hkeys₁ : ∀ l, l ∈ keys ++ [k] ↔ ∃ b ∈ before ++ [h], heap.keyAt b = some (some l) :=
        fun l => by simp [hkeys, hkey, or_and_right, exists_or, eq_comm]
      obtain ⟨keys', w', hunique, hreleased, h'⟩ :=
        ih (before ++ [h]) (keys ++ [k]) (kept ++ [h]) (keep h _ kept w start) hrest hkeys₁
      rw [List.append_assoc, List.singleton_append] at hunique h'
      exact ⟨keys', w', hunique, hreleased, h'⟩

theorem uniqueItems_hashable (rest : List Handle) (deep : env.Deep n)
    (hlive : w.heap.stats.live ≤ n) (hx : Exact .blank (↑(items ++ rest) + E) w)
    (hashable : ∀ h ∈ items, w.heap.Hashable h) :
    ∃ keys w', uniqueItems (items ++ rest) [] [] env w =
        uniqueItems rest keys (leaders w.heap.keyAt [] items) env w' ∧
      releaseAll (followers w.heap.keyAt [] items) env w = .done () w' ∧
      w'.pending = w.pending ∧ w.heap.Shrinks w'.heap ∧
      Exact .blank (↑rest + (↑(leaders w.heap.keyAt [] items) + E)) w' := by
  let I (hs kept : List Handle) (w' : World U) : Prop :=
    w'.pending = w.pending ∧ w.heap.Shrinks w'.heap ∧ Exact .blank (↑hs + (↑kept + E)) w'
  have keep (h : Handle) (hs kept : List Handle) (w₁ : World U) (h₁ : I (h :: hs) kept w₁) :
      I hs (kept ++ [h]) w₁ := by
    obtain ⟨hpending, hshrinks, hx₁⟩ := h₁
    refine ⟨hpending, hshrinks, Eq.mp (congrArg (fun H => Exact .blank H w₁) ?_) hx₁⟩
    simp only [coe_cons, coe_append, Multiset.coe_singleton]
    abel
  have giveBack (h : Handle) (hs kept : List Handle) (w₁ : World U) (h₁ : I (h :: hs) kept w₁)
      (hashable : w.heap.Hashable h) : ∃ w', release h env w₁ = .done () w' ∧ I hs kept w' := by
    obtain ⟨hpending, hshrinks, hx₁⟩ := h₁
    have alive : w₁.heap.isAlive h = true := hx₁.isAlive (by simp)
    rw [coe_cons, add_assoc] at hx₁
    obtain ⟨w₂, hrun, hpending₂, hs₂, hx₂⟩ := release_hashable deep hx₁
      (hashable.of_shrinks hshrinks hx₁ alive) (hshrinks.live.trans hlive)
    exact ⟨w₂, hrun, hpending₂.trans hpending, hshrinks.trans hs₂, hx₂⟩
  obtain ⟨keys, w', hunique, hreleased, h'⟩ := uniqueItems_rule w.heap
    (fun h hs kept w₁ h₁ _ => h₁.2.1.keyAt_eq h₁.2.2 (h₁.2.2.isAlive (by simp))) keep giveBack
    [] [] [] rest ⟨rfl, .refl _, by simpa using hx⟩ hashable (by simp)
  rw [List.nil_append] at hunique h'
  exact ⟨keys, w', hunique, hreleased, h'⟩

theorem alloc_blank (p : Payload) (env : Env U) (hx : Exact .blank (↑p.units + E) w) :
    ∃ s w', alloc p env w = .done s w' ∧ w'.heap = (w.heap.insert p).2 ∧
      w'.heap.payload? s = some p ∧ w'.pending = w.pending ∧ Exact .blank ({s} + E) w' := by
  obtain ⟨w', hrun, hpending, hheap⟩ := alloc_run p env w
  have m : Move .blank .strict (↑p.units + E, w) _ := .insert E w p
  refine ⟨_, w', hrun, hheap, ?_, hpending, (m.exact hx).of_heap_eq hheap⟩
  rw [hheap, Heap.payload?, Heap.insert_entryAt? hx.inOrder, if_pos rfl]
  rfl

theorem newSet_run {s : Handle} {w₁ w' : World U}
    (hunique : uniqueItems items [] [] env w = .done (some kept) w₁)
    (hrun : alloc (.set kept) env w₁ = .done s w') : newSet items env w = .done (some s) w' := by
  unfold newSet
  rw [bind_run, hunique]
  change (alloc (.set kept) >>= fun h => pure (some h)) env w₁ = _
  rw [bind_run, hrun]
  rfl

theorem newSet_hashable (deep : env.Deep n) (hlive : w.heap.stats.live ≤ n)
    (hx : Exact .blank (↑items + E) w) (hashable : ∀ h ∈ items, w.heap.Hashable h) :
    ∃ s w', newSet items env w = .done (some s) w' ∧
      (do
        releaseAll (followers w.heap.keyAt [] items)
        alloc (.set (leaders w.heap.keyAt [] items)) : Act U Handle) env w = .done s w' ∧
      w'.pending = w.pending ∧
      w'.heap.payload? s = some (.set (leaders w.heap.keyAt [] items)) ∧
      (∀ k ∈ leaders w.heap.keyAt [] items, w'.heap.Hashable k ∧ w'.heap.keyAt k = w.heap.keyAt k) ∧
      Exact .blank ({s} + E) w' := by
  obtain ⟨keys, w₁, hunique, hreleased, hpending, hs₁, hx₁⟩ :=
    uniqueItems_hashable [] deep hlive (by simpa using hx) hashable
  rw [List.append_nil] at hunique
  rw [Multiset.coe_nil, zero_add] at hx₁
  obtain ⟨s, w', hrun, hheap, hfound, hpending', hx'⟩ :=
    alloc_blank (.set (leaders w.heap.keyAt [] items)) env hx₁
  refine ⟨s, w', newSet_run hunique hrun, ?_, hpending'.trans hpending, hfound, fun k hk => ?_, hx'⟩
  · rw [bind_run, hreleased]
    exact hrun
  · have alive := hx₁.isAlive (h := k) (by simp [hk])
    have hk₁ := (hashable k (leaders_sublist.subset hk)).of_shrinks hs₁ hx₁ alive
    have hext : ∀ j p, w₁.heap.payload? j = some p → w'.heap.payload? j = some p := by
      intro j p hp
      rw [hheap]
      exact Heap.insert_kept hx₁.inOrder _ hp
    exact ⟨hk₁.of_extends hext, (hk₁.keyAt_eq hext).trans (hs₁.keyAt_eq hx₁ alive)⟩

theorem uniqueItems_distinct (before : List Handle) (keys : List Key)
    (hashable : ∀ h ∈ items, w.heap.Hashable h)
    (hkeys : ∀ k, k ∈ keys ↔ ∃ b ∈ before, w.heap.keyAt b = some (some k))
    (hself : leaders w.heap.keyAt before items = items) :
    uniqueItems items keys kept env w = .done (some (kept ++ items)) w := by
  induction items generalizing before keys kept with
  | nil => simp [uniqueItems, pure_run]
  | cons h items ih =>
    obtain ⟨k, hkey⟩ := Heap.hashable_iff.1 (hashable h List.mem_cons_self)
    have hleads : ¬ ∃ b ∈ before, w.heap.keyAt b = w.heap.keyAt h := fun ⟨b, hb, heq⟩ =>
      leaders_fresh h (hself.symm ▸ List.mem_cons_self) b hb heq
    rw [leaders, if_neg hleads, List.cons.injEq] at hself
    have hfresh : ¬ keys.contains k = true := by
      rwa [List.contains_iff_mem, hkeys, ← hkey]
    rw [uniqueItems, bind_run, keyOf_run hkey]
    change (if keys.contains k then _ else _ : Act U _) env w = _
    rw [if_neg hfresh, ih (before ++ [h]) _
      (fun k hk => hashable k (List.mem_cons_of_mem _ hk)) (fun l => ?_) hself.2,
      List.append_assoc, List.singleton_append]
    simp [hkeys, hkey, or_and_right, exists_or, eq_comm]

/-- A set made of units on its own items has the same items in the same order. -/
theorem newSet_again (ho : w.heap.InOrder) (hashable : ∀ h ∈ items, w.heap.Hashable h)
    (hdistinct : items.Pairwise fun a b => w.heap.keyAt a ≠ w.heap.keyAt b) :
    ∃ s w', (acquireAll items >>= newSet) env w = .done (some s) w' ∧
      w'.heap.payload? s = some (.set items) := by
  have hentry : ∀ h ∈ items, ∃ e, w.heap.entryAt? h = some e := fun h hh => by
    obtain ⟨p, found⟩ := (hashable h hh).exists_payload
    obtain ⟨e, he, -⟩ := (Heap.payload?_eq_some_iff _ _ _).1 found
    exact ⟨e, he⟩
  obtain ⟨w₁, hacquired, -, ho₁⟩ := acquireAll_overlay items (.start ho) hentry env
  have hext : ∀ j p, w.heap.payload? j = some p → w₁.heap.payload? j = some p := fun j p hp => by
    obtain ⟨e, he, rfl⟩ := (Heap.payload?_eq_some_iff _ _ _).1 hp
    exact ho₁.payload?_base he
  have hunique : uniqueItems items [] [] env w₁ = .done (some items) w₁ := by
    refine uniqueItems_distinct [] [] (fun h hh => (hashable h hh).of_extends hext)
      (by simp) (leaders_eq_self (hdistinct.imp_of_mem fun ha hb hne => ?_) (by simp))
    rwa [(hashable _ ha).keyAt_eq hext, (hashable _ hb).keyAt_eq hext]
  obtain ⟨w', hrun, -, hheap⟩ := alloc_run (.set items) env w₁
  refine ⟨(w₁.heap.insert (.set items)).1, w', ?_, ?_⟩
  · rw [bind_run, hacquired]
    exact newSet_run hunique hrun
  · rw [hheap, Heap.payload?, Heap.insert_entryAt? ho₁.inOrder, if_pos rfl]
    rfl

def unhashable (name : String) : Raised := ⟨.typeError, s!"unhashable type: '{name}'"⟩

theorem newSet_refuses {after : List Handle} {keys : List Key} {w₁ : World U}
    (hunique : uniqueItems items [] [] env w = uniqueItems (h :: after) keys kept env w₁)
    (hkey : w₁.heap.keyAt h = some none) :
    newSet items env w = (do
      holding (h :: after ++ kept) (raiseType s!"unhashable type: '{w₁.heap.typeName h}'")
      releaseAll (h :: after ++ kept)
      pure none : Act U (Option Handle)) env w₁ := by
  have hraise : holding (h :: after ++ kept) (do
        raiseType s!"unhashable type: '{← typeNameOf h}'" : Act U Unit) env w₁ =
      holding (h :: after ++ kept) (raiseType s!"unhashable type: '{w₁.heap.typeName h}'") env w₁ :=
    rfl
  unfold newSet
  rw [bind_run, hunique, uniqueItems, bind_run, keyOf_run hkey]
  simp only [bind_run, hraise]
  cases holding (h :: after ++ kept) (raiseType s!"unhashable type: '{w₁.heap.typeName h}'") env w₁
    with
  | done _ w₂ =>
    dsimp only
    cases releaseAll (h :: after ++ kept) env w₂ <;> rfl
  | fault c w₂ => rfl
  | unfinished => rfl

/-- The error is raised once the items before were dealt with, and then everything that is in hand
is given back, whatever that runs. -/
theorem newSet_unhashable {before after : List Handle} (deep : env.Deep n)
    (hlive : w.heap.stats.live ≤ n) (clear : w.pending = none)
    (hx : Exact .blank (↑(before ++ h :: after) + E) w)
    (hashable : ∀ k ∈ before, w.heap.Hashable k) (hunfolds : w.heap.Unfolds h)
    (hnot : ¬ w.heap.Hashable h) :
    ∃ w₁ w₂, releaseAll (followers w.heap.keyAt [] before) env w = .done () w₁ ∧
      w₁.pending = none ∧ w₁.heap.stats.live ≤ w.heap.stats.live ∧
      raiseType s!"unhashable type: '{w.heap.typeName h}'" env w₁ = .done () w₂ ∧
      w₂.pending = some (unhashable (w.heap.typeName h)) ∧ w₂.heap = w₁.heap ∧
      newSet (before ++ h :: after) env w =
        (releaseAll (h :: after ++ leaders w.heap.keyAt [] before) >>= fun _ => pure none)
          env w₂ := by
  obtain ⟨keys, w₁, hunique, hreleased, hpending, hs₁, hx₁⟩ :=
    uniqueItems_hashable (h :: after) deep hlive hx hashable
  have alive : w₁.heap.isAlive h = true := hx₁.isAlive (by simp)
  have hkey : w₁.heap.keyAt h = some none :=
    (hs₁.keyAt_eq hx₁ alive).trans (hunfolds.keyAt_of_not_hashable hnot)
  have hname : w₁.heap.typeName h = w.heap.typeName h := by
    obtain ⟨p, found⟩ := Heap.exists_payload_of_isAlive alive
    simp only [Heap.typeName, found, hs₁.payload h p found]
  obtain ⟨w₂, hraise, hpending₂, hheap⟩ :=
    raise_run .typeError s!"unhashable type: '{w.heap.typeName h}'" env (hpending.trans clear)
  refine ⟨w₁, w₂, hreleased, hpending.trans clear, hs₁.live, hraise, hpending₂, hheap, ?_⟩
  rw [newSet_refuses hunique hkey, hname, bind_run, holding, raiseType, onFault_done hraise]

theorem exists_first {α : Type} {P : α → Prop} {as : List α} (hsome : ∃ a ∈ as, ¬ P a) :
    ∃ before a after, as = before ++ a :: after ∧ (∀ b ∈ before, P b) ∧ ¬ P a := by
  classical
  induction as with
  | nil => simp at hsome
  | cons c as ih =>
    by_cases hc : P c
    · have hrest : ∃ a ∈ as, ¬ P a := by
        obtain ⟨a, ha, hnot⟩ := hsome
        obtain rfl | ha := List.mem_cons.1 ha
        · exact absurd hc hnot
        · exact ⟨a, ha, hnot⟩
      obtain ⟨before, a, after, rfl, hbefore, hnot⟩ := ih hrest
      exact ⟨c :: before, a, after, rfl, List.forall_mem_cons.2 ⟨hc, hbefore⟩, hnot⟩
    · exact ⟨[], c, as, rfl, by simp, hc⟩

/-- What is in hand once the items before were dealt with, and the error raised. -/
theorem exact_refused {O : Ownership U} {before after : List Handle} {w₁ w₂ : World U}
    (henv : env.Lawful O) (hx : Exact O (↑(before ++ h :: after) + E) w)
    (hreleased : releaseAll (followers heap.keyAt [] before) env w = .done () w₁)
    (hraised : raiseType s!"unhashable type: '{heap.typeName h}'" env w₁ = .done () w₂) :
    Exact O (↑(h :: after ++ leaders heap.keyAt [] before) + E) w₂ := by
  have hsplit : (↑(before ++ h :: after) + E : Multiset Handle) =
      ↑(followers heap.keyAt [] before) + (↑(h :: after ++ leaders heap.keyAt [] before) + E) := by
    have hbefore := Multiset.coe_eq_coe.2
      (leaders_append_followers heap.keyAt [] before)
    rw [coe_append] at hbefore
    rw [coe_append, coe_append, ← hbefore]
    abel
  rw [hsplit] at hx
  have hback := releaseAll_conserves (O := O) (d := .strict) (followers heap.keyAt [] before) env
    henv w (hx.ready.of_frame _)
  rw [hreleased] at hback
  have hx₁ := hback.1.exact_spend hx
  have hraise := raiseType_conserves (O := O) (d := .strict)
    s!"unhashable type: '{heap.typeName h}'" env henv w₁ hx₁.idle
  rw [hraised] at hraise
  exact hraise.1.exact_aside hx₁

/-- If all items are hashable, the set has the first of each key in order and the others have been
given back. Otherwise the first that is not is named in a type error and everything is given back.
The error is then still pending, or a dealloc slot on the way found it and left something else. -/
theorem newSet_leaders (observe : Log.Event → U → U) (user : Env U → Hooks U)
    (clear : w.pending = none) (levels : 2 * w.heap.stats.live < n) :
    (∀ items E, Exact .blank (↑items + E) w → (∀ h ∈ items, w.heap.Hashable h) →
      ∃ s w', newSet items (.tie observe user n) w = .done (some s) w' ∧ w'.pending = none ∧
        w'.heap.payload? s = some (.set (leaders w.heap.keyAt [] items)) ∧
        (leaders w.heap.keyAt [] items).Pairwise (fun a b => w.heap.keyAt a ≠ w.heap.keyAt b) ∧
        (∀ h ∈ items, ∃ k ∈ leaders w.heap.keyAt [] items, w.heap.keyAt k = w.heap.keyAt h) ∧
        (leaders w.heap.keyAt [] items ++ followers w.heap.keyAt [] items).Perm items ∧
        (do
          releaseAll (followers w.heap.keyAt [] items)
          alloc (.set (leaders w.heap.keyAt [] items)) : Act U Handle) (.tie observe user n) w =
            .done s w' ∧
        Exact .blank ({s} + E) w' ∧
        ∃ s₂ w₂, (acquireAll (leaders w.heap.keyAt [] items) >>= newSet) (.tie observe user n) w' =
            .done (some s₂) w₂ ∧
          w₂.heap.payload? s₂ = some (.set (leaders w.heap.keyAt [] items))) ∧
    ∀ (O : Ownership U) items E, Exact O (↑items + E) w → (∀ h ∈ items, w.heap.Unfolds h) →
      (∃ h ∈ items, ¬ w.heap.Hashable h) →
      ∃ before h after, items = before ++ h :: after ∧ (∀ k ∈ before, w.heap.Hashable k) ∧
        ¬ w.heap.Hashable h ∧
        ∃ w₁ w₂, releaseAll (followers w.heap.keyAt [] before) (.tie observe user n) w =
            .done () w₁ ∧
          w₂.pending = some (unhashable (w.heap.typeName h)) ∧ w₂.heap = w₁.heap ∧
          newSet items (.tie observe user n) w =
            (releaseAll (h :: after ++ leaders w.heap.keyAt [] before) >>= fun _ => pure none)
              (.tie observe user n) w₂ ∧
          ((∀ n, (Env.tie observe user n).Lawful O) →
            (∀ env n, env.Lawful O → env.Frees O n → ∀ code (hs : List Handle) w,
              Ready O .strict ↑hs w → w.heap.stats.live ≤ n →
                ((user env).destroy code hs w).Settles False
                  fun _ w' => w'.heap.stats.live ≤ w.heap.stats.live) →
            ∃ w', newSet items (.tie observe user n) w = .done none w' ∧ Exact O E w' ∧
              (¬ Meddles observe user n (h :: after ++ leaders w.heap.keyAt [] before) w₂ →
                w'.pending = some (unhashable (w.heap.typeName h)))) := by
  have deep := tie_deep observe user n
  constructor
  · intro items E hx hashable
    obtain ⟨s, w', hrun, hsteps, hpending, hfound, hkeys, hx'⟩ :=
      newSet_hashable deep (by omega) hx hashable
    have hdistinct := leaders_pairwise w.heap.keyAt [] items
    refine ⟨s, w', hrun, hpending.trans clear, hfound, hdistinct, exists_leader [],
      leaders_append_followers _ _ _, hsteps, hx', ?_⟩
    refine newSet_again hx'.inOrder (fun k hk => (hkeys k hk).1) (hdistinct.imp_of_mem ?_)
    intro a b ha hb hne
    rwa [(hkeys a ha).2, (hkeys b hb).2]
  · intro O items E hx hunfolds hsome
    obtain ⟨before, h, after, rfl, hashable, hnot⟩ := exists_first hsome
    have hblank : Exact .blank (↑(before ++ h :: after) + (E + O.units w.client)) w := by
      rw [← add_assoc]
      exact hx.blank
    obtain ⟨w₁, w₂, hreleased, -, hlive₁, hraised, hpending, hheap, hrun⟩ :=
      newSet_unhashable deep (by omega) clear hblank hashable (hunfolds h (by simp)) hnot
    refine ⟨before, h, after, rfl, hashable, hnot, w₁, w₂, hreleased, hpending, hheap, hrun, ?_⟩
    intro henv hdestroy
    have hx₂ := exact_refused (henv n) hx hreleased hraised
    have hready := hx₂.ready.of_frame (d := .strict) E
    have hlive : w₂.heap.stats.live ≤ w.heap.stats.live := hheap ▸ hlive₁
    have hback :=
      (releaseAll_frees (henv n) (tie_frees henv hdestroy levels) _ hready hlive).conserved
        (releaseAll_conserves _ _ (henv n) w₂ hready)
    obtain ⟨_, w', hgone, -, hpath⟩ := hback.exists_done
    refine ⟨w', ?_, hpath.exact_spend hx₂, fun hleaves => ?_⟩
    · rw [hrun, bind_run, hgone]
      rfl
    · exact ((releaseAll_meddles (release_meddles n) hgone).resolve_right hleaves).trans hpending

open Callable

def barredWorld : World Unit :=
  { echoWorld with
    heap := (((Heap.empty.insert (.int 1)).2.insert (.float ⟨0x3ff0000000000000⟩)).2.insert
      failingObject).2 }

theorem barredWorld_exact :
    Exact ownerless (↑[(⟨0, 0⟩ : Handle), ⟨1, 0⟩, ⟨2, 0⟩] + 0) barredWorld := by
  have hempty : Exact ownerless 0 { barredWorld with heap := .empty } :=
    ⟨Heap.empty_inOrder, fun _ => rfl, trivial⟩
  have hx := ((hempty.insert_leaf (.int 1) rfl).insert_leaf (.float ⟨0x3ff0000000000000⟩)
    rfl).insert_leaf failingObject rfl
  exact Eq.mp (congrArg (fun H => Exact ownerless H barredWorld) (by decide)) hx

theorem barredWorld_hashable : ∀ h ∈ [(⟨0, 0⟩ : Handle), ⟨1, 0⟩], barredWorld.heap.Hashable h := by
  intro h hh
  rcases List.mem_pair.1 hh with rfl | rfl
  · exact .scalar (p := .int 1) rfl rfl
  · exact .scalar (p := .float ⟨0x3ff0000000000000⟩) rfl rfl

theorem barredWorld_not_hashable : ¬ barredWorld.heap.Hashable ⟨2, 0⟩ := by
  intro hh
  obtain ⟨key, hkey⟩ := Heap.hashable_iff.1 hh
  cases hkey

theorem barredWorld_unfolds :
    ∀ h ∈ [(⟨0, 0⟩ : Handle), ⟨1, 0⟩, ⟨2, 0⟩], barredWorld.heap.Unfolds h := by
  intro h hh
  refine Heap.unfolds_of_not_tuple fun slots found => ?_
  simp only [List.mem_cons, List.not_mem_nil, or_false] at hh
  rcases hh with rfl | rfl | rfl <;> cases found

/-- The float follows the integer; with the object in hand too, all three are given back, and a
slot that puts back what it found leaves the error. -/
theorem newSet_leaders_barred :
    (∃ s w', newSet [⟨0, 0⟩, ⟨1, 0⟩] (failing putAside) barredWorld = .done (some s) w' ∧
      w'.heap.payload? s = some (.set [⟨0, 0⟩]) ∧ Exact ownerless ({s} + {⟨2, 0⟩}) w') ∧
    ∃ w', newSet [⟨0, 0⟩, ⟨1, 0⟩, ⟨2, 0⟩] (failing putAside) barredWorld = .done none w' ∧
      Exact ownerless 0 w' ∧ w'.pending = some (unhashable "failing") := by
  have hleaders : leaders barredWorld.heap.keyAt [] [⟨0, 0⟩, ⟨1, 0⟩] = [⟨0, 0⟩] := by decide
  obtain ⟨hset, hnone⟩ := newSet_leaders (w := barredWorld) (n := 8) (fun _ u => u)
    (failingHooks putAside) rfl (by decide)
  constructor
  · obtain ⟨s, w', hrun, -, hfound, -, -, -, -, hx, -⟩ :=
      hset [⟨0, 0⟩, ⟨1, 0⟩] {⟨2, 0⟩}
        (Eq.mp (congrArg (fun H => Exact ownerless H barredWorld) (by decide)) barredWorld_exact)
        barredWorld_hashable
    rw [hleaders] at hfound
    exact ⟨s, w', hrun, hfound, hx⟩
  · obtain ⟨before, h, after, hitems, hashable, hnot, _, _, -, -, -, -, hback⟩ :=
      hnone ownerless [⟨0, 0⟩, ⟨1, 0⟩, ⟨2, 0⟩] 0 barredWorld_exact barredWorld_unfolds
        ⟨⟨2, 0⟩, by simp, barredWorld_not_hashable⟩
    obtain ⟨w', hrun, hx, hkept⟩ := hback (failing_lawful putAside_conserves)
      fun env n henv hfrees _ hs w => putAside_frees henv hfrees
    have hh : h = ⟨2, 0⟩ := by
      have hmem : h ∈ [(⟨0, 0⟩ : Handle), ⟨1, 0⟩, ⟨2, 0⟩] := hitems ▸ by simp
      simp only [List.mem_cons, List.not_mem_nil, or_false] at hmem
      rcases hmem with rfl | rfl | rfl
      · exact absurd (barredWorld_hashable _ (by simp)) hnot
      · exact absurd (barredWorld_hashable _ (by simp)) hnot
      · rfl
    subst hh
    exact ⟨w', hrun, hx, hkept (not_meddles fun _ _ _ _ _ => putAside_keeps)⟩

theorem newSet_forgets_answer : ((do
      let o ← newSet [⟨2, 0⟩]
      pure (o, ← Indicator.get)) (failing forget) barredWorld).answer? = some (none, none) := by
  decide +kernel

/-- A slot that clears what is pending clears the error of the set. -/
theorem newSet_forgets : barredWorld.pending = none ∧
    Exact ownerless (↑[(⟨2, 0⟩ : Handle)] + ↑[(⟨0, 0⟩ : Handle), ⟨1, 0⟩]) barredWorld ∧
    barredWorld.heap.Unfolds ⟨2, 0⟩ ∧ ¬ barredWorld.heap.Hashable ⟨2, 0⟩ ∧
    ∃ w', newSet [⟨2, 0⟩] (failing forget) barredWorld = .done none w' ∧ w'.pending = none := by
  refine ⟨rfl, ?_, barredWorld_unfolds _ (by simp), barredWorld_not_hashable, ?_⟩
  · exact Eq.mp (congrArg (fun H => Exact ownerless H barredWorld) (by decide)) barredWorld_exact
  · obtain ⟨w', hrun⟩ := Outcome.answer?_eq_some.1 newSet_forgets_answer
    obtain ⟨o, w₁, hset, hrest⟩ := bind_eq_done.1 hrun
    obtain ⟨e, w₂, hget, hpair⟩ := bind_eq_done.1 hrest
    cases hget
    obtain ⟨hanswer, rfl⟩ := Outcome.done.inj hpair
    obtain ⟨rfl, hnone⟩ := Prod.mk.inj hanswer
    exact ⟨w₁, hset, hnone⟩

end Causeway
