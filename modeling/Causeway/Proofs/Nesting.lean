import Causeway.Proofs.Sets
/-!
# Nesting

How far down the text of an object and the key of an object are looked for. A text goes on to all
items of lists, tuples and sets, a key to the items of tuples up to the first that has none. Neither
keeps a record of where it has been, so each ends if and only if there is no cycle on its way.

Sets are made here of units on objects that are alive before. No such unit is the last one, so
nothing dies and no user code runs, whatever else is wrong with the counts.
-/
set_option autoImplicit false

namespace Causeway

open Act

def Payload.printed : Payload → List Handle
  | .list items | .set items => items
  | .tuple slots => slots.filterMap id
  | _ => []

theorem mapM_eq_none {α β : Type} {f : α → Option β} {xs : List α} :
    xs.mapM f = none ↔ ∃ x ∈ xs, f x = none := by
  induction xs with
  | nil => simp
  | cons x xs ih =>
    rw [List.mapM_cons]
    cases hx : f x with
    | none => simp [hx]
    | some y => cases hrest : xs.mapM f <;> simpa [hx, hrest] using ih

namespace Heap

variable {heap next : Heap} {h k : Handle}

def Prints (heap : Heap) (a b : Handle) : Prop := ∃ p, heap.payload? a = some p ∧ b ∈ p.printed

theorem Prints.isAlive (hk : heap.Prints h k) : heap.isAlive h = true := by
  obtain ⟨p, found, -⟩ := hk
  obtain ⟨e, he, -⟩ := (payload?_eq_some_iff heap h p).1 found
  exact (isAlive_iff heap h).2 ⟨e, he⟩

theorem shape_cases (heap : Heap) (h : Handle) :
    (∃ s, heap.shape h = .text s ∧ ∀ k, ¬ heap.Prints h k) ∨
    ∃ before after p, heap.shape h = .items before after p.printed ∧ heap.payload? h = some p := by
  unfold shape Prints
  cases found : heap.payload? h with
  | none => exact .inl ⟨_, rfl, by simp⟩
  | some p =>
    cases p with
    | list items => exact .inr ⟨_, _, .list items, rfl, rfl⟩
    | tuple slots => exact .inr ⟨_, _, .tuple slots, rfl, rfl⟩
    | set items => exact .inr ⟨_, _, .set items, rfl, rfl⟩
    | _ => exact .inl ⟨_, rfl, by simp [Payload.printed]⟩

theorem repr?_succ_eq_none (n : Nat) (h : Handle) :
    heap.repr? (n + 1) h = none ↔ ∃ k, heap.Prints h k ∧ heap.repr? n k = none := by
  obtain ⟨s, hshape, hnone⟩ | ⟨before, after, p, hshape, found⟩ := shape_cases heap h
  · simp [repr?, hshape, hnone]
  · simp [repr?, hshape, mapM_eq_none, Prints, found]

/-- The search for a text is as deep as it ever needs to be, too. -/
theorem repr?_circles : (Circles heap.Prints h → ∀ n, heap.repr? n h = none) ∧
    (heap.repr? (heap.slots.size + 1) h = none → Circles heap.Prints h) :=
  stuck_iff_circles (fun n h => heap.repr? n h = none) (fun _ _ hk => hk.isAlive)
    (fun _ => rfl) repr?_succ_eq_none

end Heap

variable {U : Type} {env : Env U} {w w₁ w₂ : World U} {units : Multiset Handle}
  {items before after kept : List Handle} {h : Handle}

structure Lent (w : World U) (units : Multiset Handle) (w₁ : World U) : Prop where
  overlay : Overlay w.heap.entryAt? 0 units w₁.heap
  pending : w₁.pending = w.pending
  settings : w₁.settings = w.settings

theorem Lent.start (ho : w.heap.InOrder) : Lent w 0 w := ⟨.start ho, rfl, rfl⟩

theorem Lent.congr {units' : Multiset Handle} (hl : Lent w units w₁) (hunits : units = units') :
    Lent w units' w₁ := hunits ▸ hl

theorem Lent.payload? (hl : Lent w units w₁) (k : Handle) :
    w₁.heap.payload? k = w.heap.payload? k := by
  cases hb : w.heap.entryAt? k with
  | some e => simp [Heap.payload?, hb, hl.overlay.kept k e hb]
  | none =>
    cases he : w₁.heap.entryAt? k with
    | none => simp [Heap.payload?, hb, he]
    | some e => exact absurd (hl.overlay.complete k e he hb) (Multiset.notMem_zero _)

theorem Noted.settings (hn : Noted env w w₁) : w₁.settings = w.settings := by
  induction hn with
  | nothing => rfl
  | event _ _ ih => exact ih

theorem Lent.noted (hl : Lent w units w₁) (hn : Noted env w₁ w₂) : Lent w units w₂ :=
  ⟨hn.kept.2 ▸ hl.overlay, hn.kept.1.trans hl.pending, hn.settings.trans hl.settings⟩

theorem acquire_lent (hl : Lent w units w₁) (alive : w.heap.isAlive h = true) (env : Env U) :
    ∃ w₂, acquire h env w₁ = .done h w₂ ∧ Lent w ({h} + units) w₂ := by
  obtain ⟨e, hb⟩ := (Heap.isAlive_iff _ _).1 alive
  obtain ⟨n, next, hi, hnext⟩ := hl.overlay.increment hb
  have hl' : Lent w ({h} + units) { w₁ with heap := next } := ⟨hnext, hl.pending, hl.settings⟩
  obtain ⟨w₂, hrun, hnoted⟩ := traced_run (.acquired h n) env { w₁ with heap := next }
  refine ⟨w₂, ?_, hl'.noted hnoted⟩
  simp [acquire, bind_run, updateHeap?, hi, hrun, pure_run]

theorem acquireBehind_lent (kept : List Handle) (hl : Lent w units w₁)
    (alive : ∀ h ∈ items, w.heap.isAlive h = true) (env : Env U) :
    ∃ w₂, acquireBehind kept items env w₁ = .done (kept ++ items) w₂ ∧
      Lent w (↑items + units) w₂ := by
  induction items generalizing kept units w₁ with
  | nil => exact ⟨w₁, by simp [acquireBehind, pure_run], by simpa using hl⟩
  | cons h items ih =>
    obtain ⟨w₂, hrun, hl₂⟩ := acquire_lent hl (alive h List.mem_cons_self) env
    obtain ⟨w₃, hrest, hl₃⟩ := ih (kept ++ [h]) hl₂ fun k hk =>
      alive k (List.mem_cons_of_mem h hk)
    refine ⟨w₃, ?_, hl₃.congr (by rw [coe_cons]; abel)⟩
    rw [acquireBehind, bind_run, holding, onFault_done hrun]
    simpa using hrest

theorem release_lent (deep : env.Deep 1) (hl : Lent w ({h} + units) w₁) :
    ∃ w₂, release h env w₁ = .done () w₂ ∧ Lent w units w₂ := by
  obtain ⟨below, -, hrelease⟩ := deep
  obtain ⟨n, next, hd, hnext⟩ := hl.overlay.decrement_shared
  have hl' : Lent w units { w₁ with heap := next } := ⟨hnext, hl.pending, hl.settings⟩
  obtain ⟨w₂, hnoted, hrun⟩ := releaseNow_alive below hd
  exact ⟨w₂, (hrelease h w₁).trans hrun, hl'.noted hnoted⟩

theorem Lent.extends (hl : Lent w units w₁) (k : Handle) (p : Payload)
    (found : w.heap.payload? k = some p) : w₁.heap.payload? k = some p :=
  (hl.payload? k).trans found

theorem Lent.hashable (hl : Lent w units w₁) : w₁.heap.Hashable h ↔ w.heap.Hashable h :=
  ⟨fun hh => hh.of_extends fun k _ found => (hl.payload? k).symm.trans found,
    fun hh => hh.of_extends hl.extends⟩

theorem Lent.consults (hl : Lent w units w₁) : w₁.heap.Consults = w.heap.Consults := by
  funext a b
  simp only [Heap.Consults, hl.payload?, hl.hashable]

/-- Units on live objects go into a set as they come, up to an item that is not hashable. -/
theorem acquireAll_unique (before after : List Handle) (ho : w.heap.InOrder) (deep : env.Deep 1)
    (alive : ∀ h ∈ before ++ after, w.heap.isAlive h = true)
    (hashable : ∀ h ∈ before, w.heap.Hashable h) :
    ∃ keys w₀ w₁, acquireAll (before ++ after) env w = .done (before ++ after) w₀ ∧
      uniqueItems (before ++ after) [] [] env w₀ =
        uniqueItems after keys (leaders w.heap.keyAt [] before) env w₁ ∧
      Lent w (↑after + ↑(leaders w.heap.keyAt [] before)) w₁ := by
  obtain ⟨w₀, hacquired, hl₀⟩ := acquireBehind_lent [] (.start ho) alive env
  rw [add_zero] at hl₀
  have keep (h : Handle) (hs kept : List Handle) (w₁ : World U)
      (hl : Lent w (↑(h :: hs) + ↑kept) w₁) : Lent w (↑hs + ↑(kept ++ [h])) w₁ := by
    refine hl.congr ?_
    simp only [coe_cons, coe_append, Multiset.coe_singleton]
    abel
  have giveBack (h : Handle) (hs kept : List Handle) (w₁ : World U)
      (hl : Lent w (↑(h :: hs) + ↑kept) w₁) (_ : w.heap.Hashable h) :
      ∃ w₂, release h env w₁ = .done () w₂ ∧ Lent w (↑hs + ↑kept) w₂ := by
    rw [coe_cons, add_assoc] at hl
    exact release_lent deep hl
  obtain ⟨keys, w₁, hunique, -, hl₁⟩ := uniqueItems_rule w.heap
    (I := fun hs kept w₁ => Lent w (↑hs + ↑kept) w₁)
    (fun _ _ _ _ hl hh => hh.keyAt_eq hl.extends) keep giveBack [] [] [] after
    (by simpa using hl₀) hashable (by simp)
  rw [List.nil_append] at hunique hl₁
  exact ⟨keys, w₀, w₁, hacquired, hunique, hl₁⟩

theorem onFault_fault {α : Type} {act : Act U α} {cleanup : Act U Unit} {c : Fault}
    (hact : act env w = .fault c w₁) (hclean : cleanup env w₁ = .done () w₂) :
    act.onFault cleanup env w = .fault c w₂ := by
  rw [Act.onFault, hact]
  simp only [hclean]

theorem repr_circles (hc : Heap.Circles w.heap.Prints h) :
    (∀ depth, w.heap.repr? depth h = none) ∧ ∀ env : Env U, repr h env w = .unfinished := by
  have hnone := Heap.repr?_circles.1 hc
  refine ⟨hnone, fun env => ?_⟩
  simp only [repr, bind_run, Act.heap, hnone, ofOption]
  rfl

theorem acquireAll_newSet (hacquired : acquireAll items env w = .done items w₁) :
    (acquireAll items >>= newSet) env w = newSet items env w₁ := by
  rw [bind_run, hacquired]

theorem newSet_borrowed (ho : w.heap.InOrder) (deep : env.Deep 1)
    (alive : ∀ h ∈ items, w.heap.isAlive h = true) (hashable : ∀ h ∈ items, w.heap.Hashable h) :
    ∃ s w', (acquireAll items >>= newSet) env w = .done (some s) w' ∧
      w'.heap.payload? s = some (.set (leaders w.heap.keyAt [] items)) := by
  obtain ⟨keys, w₀, w₁, hacquired, hunique, hl⟩ :=
    acquireAll_unique items [] ho deep (by simpa using alive) hashable
  rw [List.append_nil] at hacquired hunique
  obtain ⟨w', hrun, -, hheap⟩ := alloc_run (.set (leaders w.heap.keyAt [] items)) env w₁
  refine ⟨_, w', (acquireAll_newSet hacquired).trans (newSet_run hunique hrun), ?_⟩
  rw [hheap, Heap.payload?, Heap.insert_entryAt? hl.overlay.inOrder, if_pos rfl]
  rfl

/-- Where the key of an item is looked for in vain, the set is never done. -/
theorem newSet_circles (before after : List Handle) (ho : w.heap.InOrder) (deep : env.Deep 1)
    (alive : ∀ k ∈ before ++ h :: after, w.heap.isAlive k = true)
    (hashable : ∀ k ∈ before, w.heap.Hashable k) (hc : Heap.Circles w.heap.Consults h) :
    (acquireAll (before ++ h :: after) >>= newSet) env w = .unfinished := by
  obtain ⟨keys, w₀, w₁, hacquired, hunique, hl⟩ :=
    acquireAll_unique before (h :: after) ho deep alive hashable
  rw [← hl.consults] at hc
  have hkey : keyOf h env w₁ = .unfinished := by
    unfold keyOf
    rw [bind_run]
    change (ofOption (w₁.heap.keyAt h) : Act U (Option Key)) env w₁ = _
    rw [Heap.keyAt, Heap.key?_circles.1 hc]
    rfl
  rw [acquireAll_newSet hacquired, newSet, bind_run, hunique, uniqueItems, bind_run, hkey]

/-- The first item that is not hashable is refused, unless the error has no place to go. -/
theorem newSet_refused (ho : w.heap.InOrder) (deep : env.Deep 1)
    (alive : ∀ k ∈ before ++ h :: after, w.heap.isAlive k = true)
    (hashable : ∀ k ∈ before, w.heap.Hashable k) (hnot : ¬ w.heap.Hashable h)
    (hends : ¬ Heap.Circles w.heap.Consults h) :
    ∃ w', (∀ k, w'.heap.entryAt? k = w.heap.entryAt? k) ∧
      w'.pending = some (unhashable (w.heap.typeName h)) ∧
      ((w.pending = none ∨ w.settings.strictIndicator = false) →
        (acquireAll (before ++ h :: after) >>= newSet) env w = .done none w') ∧
      ∀ e, w.pending = some e → w.settings.strictIndicator = true →
        (acquireAll (before ++ h :: after) >>= newSet) env w = .fault (.raisedOverPending e) w' := by
  obtain ⟨keys, w₀, w₁, hacquired, hunique, hl⟩ :=
    acquireAll_unique before (h :: after) ho deep alive hashable
  have hname : w₁.heap.typeName h = w.heap.typeName h := by
    simp only [Heap.typeName, hl.payload?]
  have hkey : w₁.heap.keyAt h = some none := by
    cases hkey : w₁.heap.keyAt h with
    | none => exact absurd (hl.consults ▸ Heap.key?_circles.2 hkey) hends
    | some found =>
      cases found with
      | none => rfl
      | some key => exact absurd (hl.hashable.1 (Heap.hashable_of_key? hkey)) hnot
  have hback : ∀ w₂, w₂.heap = w₁.heap →
      ∃ w', releaseAll (h :: after ++ leaders w.heap.keyAt [] before) env w₂ = .done () w' ∧
        w'.pending = w₂.pending ∧ Overlay w.heap.entryAt? 0 0 w'.heap := fun w₂ hheap => by
    refine releaseAll_shared _ deep (hheap ▸ hl.overlay.congr rfl ?_)
    rw [coe_append, add_zero]
  have hrun := (acquireAll_newSet hacquired).trans (newSet_refuses hunique hkey)
  rw [hname] at hrun
  by_cases free : w₁.pending = none ∨ w₁.settings.strictIndicator = false
  · obtain ⟨w₂, hraise, hpending, hheap⟩ :=
      raise_over_run .typeError s!"unhashable type: '{w.heap.typeName h}'" env free
    obtain ⟨w', hreleased, hpending', ho'⟩ := hback w₂ hheap
    rw [hl.pending, hl.settings] at free
    refine ⟨w', ho'.entryAt?_eq, hpending'.trans hpending, fun _ => ?_, fun e he hstrict => ?_⟩
    · rw [hrun, bind_run, holding, raiseType, onFault_done hraise]
      change (releaseAll _ >>= _) env w₂ = _
      rw [bind_run, hreleased]
      rfl
    · simp [he, hstrict] at free
  · push Not at free
    obtain ⟨e, he⟩ := Option.ne_none_iff_exists'.1 free.1
    have hstrict : w₁.settings.strictIndicator = true := by simpa using free.2
    have hraise := raise_pending_run .typeError s!"unhashable type: '{w.heap.typeName h}'" env he
    rw [hstrict, if_pos rfl] at hraise
    obtain ⟨w', hreleased, hpending', ho'⟩ := hback { w₁ with
      pending := some (unhashable (w.heap.typeName h))
      client := env.observe (.raised (unhashable (w.heap.typeName h))) w₁.client } rfl
    rw [hl.pending] at he
    rw [hl.settings] at hstrict
    refine ⟨w', ho'.entryAt?_eq, hpending', fun hfree => ?_, fun e' he' _ => ?_⟩
    · simp [he, hstrict] at hfree
    · obtain rfl := Option.some.inj (he.symm.trans he')
      rw [hrun, bind_run, holding, raiseType, onFault_fault hraise hreleased]

/-- A text ends unless there is a cycle of containers on its way, and a set of units on live objects
is done unless the key of its first item that is not hashable is looked for on a cycle of tuples:
all items go in by their keys, or the first that has none is refused and everything is as before. -/
theorem repr_newSet_ends (observe : Log.Event → U → U) (user : Env U → Hooks U) (n : Nat)
    (ho : w.heap.InOrder) :
    (∀ h, (¬ Heap.Circles w.heap.Prints h → ∃ s, ∀ env : Env U, repr h env w = .done s w) ∧
      (Heap.Circles w.heap.Prints h → (∀ depth, w.heap.repr? depth h = none) ∧
        ∀ env : Env U, repr h env w = .unfinished)) ∧
    ∀ items, (∀ h ∈ items, w.heap.isAlive h = true) →
      ((∀ h ∈ items, w.heap.Hashable h) →
        ∃ s w', (acquireAll items >>= newSet) (.tie observe user (n + 1)) w = .done (some s) w' ∧
          w'.heap.payload? s = some (.set (leaders w.heap.keyAt [] items))) ∧
      ∀ before h after, items = before ++ h :: after → (∀ k ∈ before, w.heap.Hashable k) →
        ¬ w.heap.Hashable h →
        (Heap.Circles w.heap.Consults h → (∀ depth, w.heap.key? depth h = none) ∧
          (acquireAll items >>= newSet) (.tie observe user (n + 1)) w = .unfinished) ∧
        (¬ Heap.Circles w.heap.Consults h →
          ∃ w', (∀ k, w'.heap.entryAt? k = w.heap.entryAt? k) ∧
            w'.pending = some (unhashable (w.heap.typeName h)) ∧
            ((w.pending = none ∨ w.settings.strictIndicator = false) →
              (acquireAll items >>= newSet) (.tie observe user (n + 1)) w = .done none w') ∧
            ∀ e, w.pending = some e → w.settings.strictIndicator = true →
              (acquireAll items >>= newSet) (.tie observe user (n + 1)) w =
                .fault (.raisedOverPending e) w') := by
  have deep : (Env.tie observe user (n + 1)).Deep 1 :=
    (tie_deep observe user (n + 1)).of_le (Nat.le_add_left 1 n)
  refine ⟨fun h => ⟨fun hends => ?_, fun hc => ?_⟩, fun items alive => ⟨fun hashable => ?_, ?_⟩⟩
  · cases hrepr : w.heap.repr? (w.heap.slots.size + 1) h with
    | none => exact absurd (Heap.repr?_circles.2 hrepr) hends
    | some s => exact ⟨s, fun env => by simp [repr, bind_run, Act.heap, ofOption, hrepr, pure_run]⟩
  · exact repr_circles hc
  · exact newSet_borrowed ho deep alive hashable
  · rintro before h after rfl hashable hnot
    exact ⟨fun hc => ⟨Heap.key?_circles.1 hc, newSet_circles before after ho deep alive hashable hc⟩,
      newSet_refused ho deep alive hashable hnot⟩

/-- An object with a dealloc slot has a text and no key, and two equal numbers have one key. -/
theorem repr_newSet_ends_barred :
    (∃ s, ∀ env : Env Unit, repr ⟨2, 0⟩ env barredWorld = .done s barredWorld) ∧
    (∃ s w', (acquireAll [⟨0, 0⟩, ⟨1, 0⟩] >>= newSet) (.tie (fun _ u => u) (fun _ => .exhausted) 1)
        barredWorld = .done (some s) w' ∧ w'.heap.payload? s = some (.set [⟨0, 0⟩])) ∧
    ∃ w', (acquireAll [⟨0, 0⟩, ⟨2, 0⟩] >>= newSet) (.tie (fun _ u => u) (fun _ => .exhausted) 1)
        barredWorld = .done none w' ∧ w'.pending = some (unhashable "failing") := by
  obtain ⟨htexts, hsets⟩ := repr_newSet_ends (fun _ u => u) (fun _ => .exhausted) 0
    barredWorld_exact.inOrder
  have hleaders : leaders barredWorld.heap.keyAt [] [⟨0, 0⟩, ⟨1, 0⟩] = [⟨0, 0⟩] := by decide
  refine ⟨(htexts ⟨2, 0⟩).1 fun hc => ?_, ?_, ?_⟩
  · obtain ⟨k, ⟨p, found, hk⟩, -⟩ := hc.step
    cases found
    cases hk
  · rw [← hleaders]
    exact (hsets [⟨0, 0⟩, ⟨1, 0⟩] (by decide)).1 barredWorld_hashable
  · obtain ⟨w', -, hpending, hrun, -⟩ := ((hsets [⟨0, 0⟩, ⟨2, 0⟩] (by decide)).2 [⟨0, 0⟩] ⟨2, 0⟩ []
      rfl (fun k hk => barredWorld_hashable k (by simp_all)) barredWorld_not_hashable).2 fun hc => by
        obtain ⟨k, ⟨slots, _, _, found, -⟩, -⟩ := hc.step
        cases found
    exact ⟨w', hrun (.inl rfl), hpending⟩

open Machine Program

theorem newSet_of_self {w : World Client} (ho : w.heap.InOrder) (hself : w.heap.Consults h h) :
    (∀ depth, w.heap.key? depth h = none) ∧
      ∀ n, (acquireAll [h] >>= newSet) (envOf (n + 1)) w = .unfinished := by
  have hc : Heap.Circles w.heap.Consults h := ⟨h, .refl, .single hself⟩
  refine ⟨Heap.key?_circles.1 hc, fun n => ?_⟩
  exact newSet_circles [] [] ho ((tie_deep _ _ (n + 1)).of_le (Nat.le_add_left 1 n))
    (by simpa using hself.nests.isAlive) (by simp) hc

/-- A list appended to itself has no text, and an argument container that is put into itself has no
key. -/
theorem repr_newSet_never_end :
    (∃ e₁ e₂ w₁ w₂,
      runOp [] (.op (.new (.list [])) (some "a") none false) (envOf 3) (start false {}) =
        .done e₁ w₁ ∧
      runOp [] (.op (.append "a" (.ref "a")) none none false) (envOf 3) w₁ = .done e₂ w₂ ∧
      w₂.heap.isAlive ⟨0, 0⟩ = true ∧ (∀ depth, w₂.heap.repr? depth ⟨0, 0⟩ = none) ∧
      ∀ env, repr ⟨0, 0⟩ env w₂ = .unfinished) ∧
    ∃ e₁ e₂ w₁ w₂,
      runOp [] (.op (.newArguments 1) (some "t") none false) (envOf 3) (start false {}) =
        .done e₁ w₁ ∧
      runOp [] (.op (.setArgument "t" 0 (.ref "t")) none none false) (envOf 3) w₁ = .done e₂ w₂ ∧
      w₂.heap.isAlive ⟨0, 0⟩ = true ∧ (∀ depth, w₂.heap.key? depth ⟨0, 0⟩ = none) ∧
      ∀ n, (acquireAll [⟨0, 0⟩] >>= newSet) (envOf (n + 1)) w₂ = .unfinished := by
  constructor
  · exact ⟨_, _, _, _, rfl, rfl, rfl,
      repr_circles ⟨⟨0, 0⟩, .refl, .single ⟨.list [⟨0, 0⟩], rfl, List.mem_cons_self⟩⟩⟩
  · refine ⟨_, _, _, _, rfl, rfl, rfl, newSet_of_self ?_
      ⟨[some ⟨0, 0⟩], [], [], rfl, rfl, by simp⟩⟩
    exact ((Visited.start false {}).op 3 [] (.op (.newArguments 1) (some "t") none false) rfl).op 3 []
      (.op (.setArgument "t" 0 (.ref "t")) none none false) rfl |>.reached.inOrder

end Causeway
