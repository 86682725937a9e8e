import Causeway.Proofs.Elements
import Causeway.Proofs.OwnershipCycles
/-!
# Value trees

What a graph of plain data denotes once sharing is forgotten. Every object from which no way leads
back to itself, over plain data only, shows exactly one tree.
-/
set_option autoImplicit false

namespace Causeway

inductive ValueTree where
  | none
  | bool (value : Bool)
  | int (value : Int64)
  | float (value : Binary64)
  | str (text : String)
  | list (items : List ValueTree)
  | tuple (items : List ValueTree)
  | set (items : List ValueTree)

namespace ValueTree

def items : ValueTree → List ValueTree
  | list ts | tuple ts | set ts => ts
  | _ => []

def payload : ValueTree → List Handle → Payload
  | none, _ => .none
  | bool b, _ => .bool b
  | int i, _ => .int i
  | float x, _ => .float x
  | str s, _ => .str s
  | list _, hs => .list hs
  | tuple _, hs => .tuple (hs.map some)
  | set _, hs => .set hs

def typeName (t : ValueTree) : String := (t.payload []).typeName

mutual

/-- As many elements as a pass meets anywhere in the tree. -/
def breadth : ValueTree → Nat
  | str s => s.length
  | list ts | tuple ts | set ts => max ts.length (breadthOf ts)
  | _ => 0

def breadthOf : List ValueTree → Nat
  | [] => 0
  | t :: ts => max t.breadth (breadthOf ts)

end

theorem breadth_le_breadthOf {t : ValueTree} {ts : List ValueTree} (ht : t ∈ ts) :
    t.breadth ≤ breadthOf ts := by
  induction ts with
  | nil => simp at ht
  | cons u us ih =>
    rw [breadthOf]
    rcases List.mem_cons.1 ht with rfl | ht
    · exact le_max_left _ _
    · exact (ih ht).trans (le_max_right _ _)

theorem breadth_le_of_mem {t u : ValueTree} (hu : u ∈ t.items) : u.breadth ≤ t.breadth := by
  cases t with
  | list ts | tuple ts | set ts =>
    rw [breadth]
    exact (breadth_le_breadthOf hu).trans (le_max_right _ _)
  | _ => cases hu

theorem sizeOf_lt_of_mem {t u : ValueTree} (hu : u ∈ t.items) : sizeOf u < sizeOf t := by
  cases t with
  | list ts =>
    have hlt := List.sizeOf_lt_of_mem hu
    simp only [items, list.sizeOf_spec] at hlt ⊢
    omega
  | tuple ts =>
    have hlt := List.sizeOf_lt_of_mem hu
    simp only [items, tuple.sizeOf_spec] at hlt ⊢
    omega
  | set ts =>
    have hlt := List.sizeOf_lt_of_mem hu
    simp only [items, set.sizeOf_spec] at hlt ⊢
    omega
  | _ => cases hu

theorem induction {motive : ValueTree → Prop}
    (step : ∀ t : ValueTree, (∀ u ∈ t.items, motive u) → motive t) (t : ValueTree) : motive t :=
  step t fun u _ => induction step u
termination_by sizeOf t
decreasing_by exact sizeOf_lt_of_mem ‹_›

/-- An object that holds a tree's payload, over objects that show its items. -/
inductive Shows (look : Handle → Option Payload) : Handle → ValueTree → Prop where
  | intro {h : Handle} {t : ValueTree} {hs : List Handle} (found : look h = some (t.payload hs))
      (items : List.Forall₂ (Shows look) hs t.items) : Shows look h t

variable {look look' : Handle → Option Payload} {h : Handle} {t u : ValueTree} {hs : List Handle}

theorem forall₂_eq {α β : Type} {R : α → β → Prop} {as : List α} {bs bs' : List β}
    (h : List.Forall₂ R as bs) (h' : List.Forall₂ R as bs')
    (hR : ∀ a, ∀ b ∈ bs, ∀ b', R a b → R a b' → b = b') : bs = bs' := by
  induction h generalizing bs' with
  | nil =>
    cases h'
    rfl
  | cons hab _ ih =>
    cases h' with
    | cons hab' hrest' =>
      rw [hR _ _ List.mem_cons_self _ hab hab',
        ih hrest' fun a b hb => hR a b (List.mem_cons_of_mem _ hb)]

theorem units_payload (hlength : hs.length = t.items.length) : (t.payload hs).units = hs := by
  cases t with
  | tuple ts => simp [payload, Payload.units]
  | list ts | set ts => rfl
  | _ => exact (List.eq_nil_of_length_eq_zero hlength).symm

def ofPayload? : Payload → List ValueTree → Option ValueTree
  | .none, _ => some none
  | .bool b, _ => some (bool b)
  | .int i, _ => some (int i)
  | .float x, _ => some (float x)
  | .str s, _ => some (str s)
  | .list _, ts => some (list ts)
  | .tuple _, ts => some (tuple ts)
  | .set _, ts => some (set ts)
  | _, _ => Option.none

theorem ofPayload?_payload (t : ValueTree) (hs : List Handle) :
    ofPayload? (t.payload hs) t.items = some t := by
  cases t <;> rfl

theorem Shows.unique (ht : Shows look h t) (hu : Shows look h u) : t = u := by
  induction t using induction generalizing h u with
  | step t ih =>
    obtain ⟨found, items⟩ := ht
    obtain ⟨found', items'⟩ := hu
    have hpayload := Option.some.inj (found.symm.trans found')
    have hhandles := congrArg Payload.units hpayload
    rw [units_payload items.length_eq, units_payload items'.length_eq] at hhandles
    subst hhandles
    have hitems := forall₂_eq items items' fun _ b hb _ h h' => ih b hb h h'
    have heq : some t = some u := by
      rw [← ofPayload?_payload t, ← ofPayload?_payload u, hpayload, hitems]
    exact Option.some.inj heq

theorem forall₂_imp {α β : Type} {R S : α → β → Prop} {as : List α} {bs : List β}
    (h : List.Forall₂ R as bs) (hRS : ∀ a, ∀ b ∈ bs, R a b → S a b) : List.Forall₂ S as bs := by
  induction h with
  | nil => exact .nil
  | cons hab _ ih =>
    exact .cons (hRS _ _ List.mem_cons_self hab)
      (ih fun a b hb => hRS a b (List.mem_cons_of_mem _ hb))

theorem Shows.mono (ht : Shows look h t) (hmono : ∀ k p, look k = some p → look' k = some p) :
    Shows look' h t := by
  induction t using induction generalizing h with
  | step t ih =>
    obtain ⟨found, items⟩ := ht
    exact ⟨hmono _ _ found, forall₂_imp items fun _ u hu h => ih u hu h⟩

end ValueTree

/-- Plain data, argument containers that are not filled excepted. -/
def Payload.isData : Payload → Bool
  | .none | .bool _ | .int _ | .float _ | .str _ | .list _ | .set _ => true
  | .tuple slots => slots.all Option.isSome
  | _ => false

theorem eq_map_some {α : Type} {slots : List (Option α)}
    (hfilled : slots.all Option.isSome = true) : slots = (slots.filterMap id).map some := by
  induction slots with
  | nil => rfl
  | cons slot slots ih =>
    rw [List.all_cons, Bool.and_eq_true] at hfilled
    cases slot with
    | none => cases hfilled.1
    | some a => exact congrArg (some a :: ·) (ih hfilled.2)

theorem Payload.exists_tree {p : Payload} (hp : p.isData = true) {ts : List ValueTree}
    (hlength : p.units.length = ts.length) :
    ∃ t : ValueTree, t.payload p.units = p ∧ t.items = ts := by
  have hleaf (hnil : p.units = []) : [] = ts :=
    (List.eq_nil_of_length_eq_zero (by rw [← hlength, hnil]; rfl)).symm
  cases p with
  | none => exact ⟨.none, rfl, hleaf rfl⟩
  | bool b => exact ⟨.bool b, rfl, hleaf rfl⟩
  | int i => exact ⟨.int i, rfl, hleaf rfl⟩
  | float x => exact ⟨.float x, rfl, hleaf rfl⟩
  | str s => exact ⟨.str s, rfl, hleaf rfl⟩
  | list hs => exact ⟨.list ts, rfl, rfl⟩
  | set hs => exact ⟨.set ts, rfl, rfl⟩
  | tuple slots => exact ⟨.tuple ts, congrArg Payload.tuple (eq_map_some hp).symm, rfl⟩
  | _ => cases hp

theorem exists_forall₂ {α β : Type} {R : α → β → Prop} {as : List α} (h : ∀ a ∈ as, ∃ b, R a b) :
    ∃ bs, List.Forall₂ R as bs := by
  induction as with
  | nil => exact ⟨[], .nil⟩
  | cons a as ih =>
    obtain ⟨b, hb⟩ := h a List.mem_cons_self
    obtain ⟨bs, hbs⟩ := ih fun a ha => h a (List.mem_cons_of_mem _ ha)
    exact ⟨b :: bs, .cons hb hbs⟩

namespace Heap

variable {heap : Heap} {root h : Handle} {t : ValueTree}

def Shows (heap : Heap) (h : Handle) (t : ValueTree) : Prop := t.Shows heap.payload? h

/-- What the object leads to is plain data, and none of it leads back to itself. Objects may be
shared. -/
structure AcyclicData (heap : Heap) (root : Handle) : Prop where
  data : ∀ h, Relation.ReflTransGen heap.Owns root h → ∃ p, heap.payload? h = some p ∧ p.isData
  acyclic : ∀ h, Relation.ReflTransGen heap.Owns root h → ¬ Relation.TransGen heap.Owns h h

theorem AcyclicData.wellFounded (hd : heap.AcyclicData root) :
    WellFounded fun a b : {h : Handle // Relation.ReflTransGen heap.Owns root h} =>
      Relation.TransGen heap.Owns b.1 a.1 := by
  have hfinite := heap.alive_finite
  have halive (a : {h : Handle // Relation.ReflTransGen heap.Owns root h}) :
      heap.isAlive a.1 = true := by
    obtain ⟨p, hp, -⟩ := hd.data a.1 a.2
    obtain ⟨e, he, -⟩ := (payload?_eq_some_iff heap a.1 p).1 hp
    exact (isAlive_iff heap a.1).2 ⟨e, he⟩
  have : Finite {h : Handle // Relation.ReflTransGen heap.Owns root h} :=
    Finite.of_injective
      (fun a => (⟨a.1, halive a⟩ : {h : Handle // heap.isAlive h = true}))
      fun a b hab => Subtype.ext (congrArg (fun x => x.1) hab)
  have : Std.Irrefl fun a b : {h : Handle // Relation.ReflTransGen heap.Owns root h} =>
      Relation.TransGen heap.Owns b.1 a.1 := ⟨fun a => hd.acyclic a.1 a.2⟩
  have : IsTrans {h : Handle // Relation.ReflTransGen heap.Owns root h} fun a b =>
      Relation.TransGen heap.Owns b.1 a.1 := ⟨fun _ _ _ hab hbc => hbc.trans hab⟩
  exact Finite.wellFounded_of_trans_of_irrefl _

theorem AcyclicData.exists_shows (hd : heap.AcyclicData root) : ∃ t, heap.Shows root t := by
  suffices hall : ∀ a : {h : Handle // Relation.ReflTransGen heap.Owns root h},
      ∃ t, heap.Shows a.1 t from hall ⟨root, .refl⟩
  intro a
  induction a using hd.wellFounded.induction with
  | h a ih =>
    obtain ⟨p, hp, hdata⟩ := hd.data a.1 a.2
    have hitem : ∀ k ∈ p.units, ∃ t, heap.Shows k t := fun k hk =>
      ih ⟨k, a.2.tail ⟨p, hp, hk⟩⟩ (.single ⟨p, hp, hk⟩)
    obtain ⟨ts, hts⟩ := exists_forall₂ hitem
    obtain ⟨t, hpayload, hitems⟩ := Payload.exists_tree hdata hts.length_eq
    exact ⟨t, .intro (hp.trans (congrArg some hpayload.symm)) (hitems ▸ hts)⟩

theorem isData_payload (t : ValueTree) (hs : List Handle) : (t.payload hs).isData = true := by
  cases t with
  | tuple ts => simp [ValueTree.payload, Payload.isData]
  | _ => rfl

/-- What an object that shows a tree owns shows an item of it. -/
theorem Shows.of_owns {k : Handle} (ht : heap.Shows h t) (hk : heap.Owns h k) :
    ∃ u ∈ t.items, heap.Shows k u := by
  obtain ⟨found, items⟩ := ht
  obtain ⟨p, hp, hmem⟩ := hk
  obtain rfl := Option.some.inj (found.symm.trans hp)
  rw [ValueTree.units_payload items.length_eq] at hmem
  obtain ⟨i, hi, rfl⟩ := List.mem_iff_getElem.1 hmem
  have hi' : i < t.items.length := items.length_eq ▸ hi
  exact ⟨t.items[i], List.getElem_mem hi', List.Forall₂.get items hi hi'⟩

theorem Shows.of_transGen {k : Handle} (ht : heap.Shows h t)
    (hk : Relation.TransGen heap.Owns h k) : ∃ u, heap.Shows k u ∧ sizeOf u < sizeOf t := by
  induction hk with
  | single hk =>
    obtain ⟨u, hu, hshows⟩ := ht.of_owns hk
    exact ⟨u, hshows, ValueTree.sizeOf_lt_of_mem hu⟩
  | tail _ hk ih =>
    obtain ⟨u, hshows, hlt⟩ := ih
    obtain ⟨u', hu', hshows'⟩ := hshows.of_owns hk
    exact ⟨u', hshows', (ValueTree.sizeOf_lt_of_mem hu').trans hlt⟩

/-- The objects that show trees are the roots of acyclic data. -/
theorem acyclicData_iff : heap.AcyclicData root ↔ ∃ t, heap.Shows root t := by
  refine ⟨AcyclicData.exists_shows, fun ⟨t, ht⟩ => ?_⟩
  have hreach (h : Handle) (hh : Relation.ReflTransGen heap.Owns root h) :
      ∃ u, heap.Shows h u := by
    obtain rfl | hh := Relation.reflTransGen_iff_eq_or_transGen.1 hh
    · exact ⟨t, ht⟩
    · obtain ⟨u, hu, -⟩ := ht.of_transGen hh
      exact ⟨u, hu⟩
  constructor
  · intro h hh
    obtain ⟨u, found, -⟩ := hreach h hh
    exact ⟨_, found, isData_payload u _⟩
  · intro h hh hcycle
    obtain ⟨u, hu⟩ := hreach h hh
    obtain ⟨u', hu', hlt⟩ := hu.of_transGen hcycle
    rw [hu'.unique hu] at hlt
    exact lt_irrefl _ hlt

end Heap

end Causeway
