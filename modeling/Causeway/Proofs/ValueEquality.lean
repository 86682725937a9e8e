import Causeway.Proofs.Numbers
import Causeway.Proofs.Sets
import Causeway.Proofs.ValueTrees
/-!
# Equality of values

When two values are equal, and when a set takes them for one. Numbers are equal across booleans,
integers and floats if they are one number, texts by their characters, and tuples item by item. A
set agrees, but for one integer: the float `-2 ^ 63` does not have the key of the integer that it
is.
-/
set_option autoImplicit false

namespace Causeway

namespace ValueTree

def number? : ValueTree → Option Number
  | bool b => some (.finite (if b then 1 else 0))
  | int i => some (.finite i.toInt)
  | float x => x.number?
  | _ => Option.none

/-- A value that sets take, without a NaN in it. -/
inductive Comparable : ValueTree → Prop where
  | none : Comparable none
  | number {t : ValueTree} {n : Number} (ht : t.number? = some n) : Comparable t
  | str (s : String) : Comparable (str s)
  | tuple {ts : List ValueTree} (items : ∀ t ∈ ts, Comparable t) : Comparable (tuple ts)

inductive Equal : ValueTree → ValueTree → Prop where
  | none : Equal none none
  | number {t u : ValueTree} {n : Number} (ht : t.number? = some n) (hu : u.number? = some n) :
      Equal t u
  | str (s : String) : Equal (str s) (str s)
  | tuple {ts us : List ValueTree} (items : List.Forall₂ Equal ts us) : Equal (tuple ts) (tuple us)

def leastInteger : Binary64 := ⟨0xc3e0000000000000⟩

/-- At some place one value has the least integer as an integer, and the other as a float. -/
inductive Straddles : ValueTree → ValueTree → Prop where
  | intFloat : Straddles (int Int64.minValue) (float leastInteger)
  | floatInt : Straddles (float leastInteger) (int Int64.minValue)
  | tuple {ts us : List ValueTree} {i : Nat} {t u : ValueTree} (ht : ts[i]? = some t)
      (hu : us[i]? = some u) (inside : Straddles t u) : Straddles (tuple ts) (tuple us)

mutual

def key? : ValueTree → Option Key
  | none => some .none
  | bool b => some (.int (if b then 1 else 0))
  | int i => some (.int i)
  | float x => some (.ofFloat x)
  | str s => some (.str s)
  | tuple ts => (keys? ts).map .tuple
  | list _ | set _ => Option.none

def keys? : List ValueTree → Option (List Key)
  | [] => some []
  | t :: ts =>
    match t.key? with
    | some k => (keys? ts).map (k :: ·)
    | Option.none => Option.none

end

theorem keysOf_shows {heap : Heap} {n : Nat} {hs : List Handle} {ts : List ValueTree}
    {found : Option (List Key)} (shown : List.Forall₂ heap.Shows hs ts)
    (hitem : ∀ h, ∀ t ∈ ts, ∀ found, heap.Shows h t → heap.key? n h = some found → found = t.key?)
    (hkeys : Heap.keysOf (heap.key? n) hs = some found) : found = keys? ts := by
  induction shown generalizing found with
  | nil =>
    cases hkeys
    rfl
  | @cons h t hs ts hshows _ ih =>
    cases hkey : heap.key? n h with
    | none => simp [Heap.keysOf, hkey] at hkeys
    | some key =>
      have htree := hitem h t List.mem_cons_self key hshows hkey
      cases key with
      | none =>
        simp only [Heap.keysOf, hkey, Option.some.injEq] at hkeys
        rw [← hkeys, keys?, ← htree]
      | some k =>
        simp only [Heap.keysOf, hkey, Option.map_eq_some_iff] at hkeys
        obtain ⟨rest, hrest, rfl⟩ := hkeys
        rw [keys?, ← htree,
          ih (fun h t ht => hitem h t (List.mem_cons_of_mem _ ht)) hrest]

/-- What is found for an object is the key of the value it shows. -/
theorem Shows.key?_eq {heap : Heap} {h : Handle} {t : ValueTree} {n : Nat} {found : Option Key}
    (hshows : heap.Shows h t) (hkey : heap.key? n h = some found) : found = t.key? := by
  induction t using ValueTree.induction generalizing h n found with
  | step t ih =>
    cases n with
    | zero => cases hkey
    | succ n =>
      obtain ⟨hfound, items⟩ := hshows
      cases t with
      | tuple ts =>
        rw [Heap.key?_tuple n hfound, Option.map_eq_some_iff] at hkey
        obtain ⟨keys, hkeys, rfl⟩ := hkey
        rw [List.filterMap_map, Function.id_comp, List.filterMap_some] at hkeys
        rw [key?, keysOf_shows items (fun h t ht _ hshows hkey => ih t ht hshows hkey) hkeys]
        rfl
      | list ts | set ts =>
        rw [Heap.key?_other n (by simp [hfound, payload, Heap.scalarKey?])
          (by simp [hfound, payload])] at hkey
        exact (Option.some.inj hkey).symm
      | _ =>
        rw [Heap.key?_scalar n hfound rfl] at hkey
        exact (Option.some.inj hkey).symm

inductive Kind where
  | none
  | number
  | text
  | tuple
  | container
deriving DecidableEq

def kind : ValueTree → Kind
  | none => .none
  | bool _ | int _ | float _ => .number
  | str _ => .text
  | tuple _ => .tuple
  | list _ | set _ => .container

def kindOf : Key → Kind
  | .none => .none
  | .int _ | .float _ => .number
  | .str _ => .text
  | .tuple _ => .tuple

variable {t u : ValueTree} {m n : Number} {k : Key}

theorem kindOf_ofFloat (x : Binary64) : kindOf (.ofFloat x) = .number := by
  obtain ⟨i, hi⟩ | hbits := Key.ofFloat_cases x
  · rw [hi]
    rfl
  · rw [hbits]
    rfl

theorem kindOf_key (hkey : t.key? = some k) : kindOf k = t.kind := by
  cases t with
  | tuple ts =>
    obtain ⟨ks, -, rfl⟩ := Option.map_eq_some_iff.1 hkey
    rfl
  | float x =>
    cases hkey
    exact kindOf_ofFloat x
  | list ts | set ts => cases hkey
  | _ =>
    cases hkey
    rfl

theorem kind_of_number (ht : t.number? = some n) : t.kind = .number := by
  cases t <;> first | rfl | cases ht

theorem Equal.kind_eq (h : t.Equal u) : t.kind = u.kind := by
  cases h with
  | number ht hu => rw [kind_of_number ht, kind_of_number hu]
  | _ => rfl

theorem keys?_eq_some {ts : List ValueTree} (hitem : ∀ t ∈ ts, ∃ k, t.key? = some k) :
    ∃ ks, keys? ts = some ks := by
  induction ts with
  | nil => exact ⟨[], rfl⟩
  | cons t ts ih =>
    obtain ⟨k, hk⟩ := hitem t List.mem_cons_self
    obtain ⟨ks, hks⟩ := ih fun u hu => hitem u (List.mem_cons_of_mem _ hu)
    exact ⟨k :: ks, by rw [keys?, hk, hks]; rfl⟩

theorem Comparable.exists_key (ht : t.Comparable) : ∃ k, t.key? = some k := by
  induction ht with
  | number ht =>
    rename_i t n
    cases t <;> first | exact ⟨_, rfl⟩ | cases ht
  | tuple _ ih =>
    obtain ⟨ks, hks⟩ := keys?_eq_some ih
    exact ⟨.tuple ks, by rw [key?, hks]; rfl⟩
  | _ => exact ⟨_, rfl⟩

theorem leastInteger_number : leastInteger.number? = some (.finite ((-2 ^ 63 : ℤ) : ℚ)) :=
  Binary64.integer?_eq_some_iff.1 (by decide)

theorem eq_leastInteger {x : Binary64} (hx : x.number? = some (.finite ((-2 ^ 63 : ℤ) : ℚ))) :
    x = leastInteger := by
  obtain ⟨-, hvalue⟩ := Binary64.number?_eq_finite.1 hx
  obtain ⟨-, hleast⟩ := Binary64.number?_eq_finite.1 leastInteger_number
  obtain heq | hzero := Binary64.eq_of_value_eq (hvalue.trans hleast.symm)
  · exact heq
  · rw [hvalue] at hzero
    norm_num at hzero

theorem number_cases (ht : t.number? = some n) :
    (∃ i : Int64, t.key? = some (.int i) ∧ n = .finite i.toInt ∧
      (i = Int64.minValue → t = int Int64.minValue) ∧ ∀ x, t ≠ float x) ∨ ∃ x, t = float x := by
  cases t with
  | bool b =>
    cases ht
    refine .inl ⟨if b then 1 else 0, rfl, ?_, fun h => absurd h ?_, nofun⟩
    · cases b <;> simp
    · cases b <;> decide
  | int i =>
    cases ht
    exact .inl ⟨i, rfl, rfl, fun h => congrArg int h, nofun⟩
  | float x => exact .inr ⟨x, rfl⟩
  | _ => cases ht

theorem straddles_symm (h : t.Straddles u) : u.Straddles t := by
  induction h with
  | intFloat => exact .floatInt
  | floatInt => exact .intFloat
  | tuple ht hu _ ih => exact .tuple hu ht ih

theorem int_eq_float {i : Int64} {x : Binary64} (hi : t.key? = some (.int i))
    (hleast : i = Int64.minValue → t = int Int64.minValue) (hx : x.number? = some n) :
    t.key? = (float x).key? ↔ .finite (i.toInt : ℚ) = n ∧ ¬ t.Straddles (float x) := by
  have hkey : t.key? = (float x).key? ↔ n = .finite i.toInt ∧ i ≠ Int64.minValue := by
    rw [hi, key?, Option.some.injEq, eq_comm, Key.ofFloat_eq_int, hx, Option.some.injEq]
  rw [hkey, eq_comm]
  refine and_congr_right fun hn => not_congr ⟨fun hmin => ?_, fun hs => ?_⟩
  · rw [← hn, hmin, Int64.toInt_minValue] at hx
    rw [hleast hmin, eq_leastInteger hx]
    exact .intFloat
  · cases hs
    exact (Key.int.inj (Option.some.inj hi)).symm

theorem key?_eq_of_number (ht : t.number? = some m) (hu : u.number? = some n) :
    t.key? = u.key? ↔ m = n ∧ ¬ t.Straddles u := by
  obtain ⟨i, hi, rfl, hleast, hfloat⟩ | ⟨x, rfl⟩ := number_cases ht
  · obtain ⟨j, hj, rfl, -, hfloat'⟩ | ⟨y, rfl⟩ := number_cases hu
    · have hnot : ¬ t.Straddles u := by
        intro hs
        cases hs with
        | intFloat => exact hfloat' _ rfl
        | floatInt => exact hfloat _ rfl
        | tuple => cases ht
      rw [hi, hj, Option.some.injEq, Key.int.injEq, Number.finite.injEq, Int.cast_inj,
        Int64.toInt_inj, and_iff_left hnot]
    · exact int_eq_float hi hleast hu
  · obtain ⟨j, hj, rfl, hleast, -⟩ | ⟨y, rfl⟩ := number_cases hu
    · rw [eq_comm, int_eq_float hj hleast ht, eq_comm]
      exact and_congr_right fun _ => not_congr ⟨straddles_symm, straddles_symm⟩
    · have hnot : ¬ (float x).Straddles (float y) := nofun
      rw [key?, key?, Option.some.injEq, Key.ofFloat_eq_ofFloat ht hu, and_iff_left hnot]

theorem Equal.of_number (h : t.Equal u) (ht : t.number? = some m) (hu : u.number? = some n) :
    m = n := by
  cases h with
  | number ht' hu' => exact Option.some.inj ((ht.symm.trans ht').trans (hu'.symm.trans hu))
  | _ => cases ht

theorem keys?_eq_iff {ts us : List ValueTree} (hts : ∀ t ∈ ts, ∃ k, t.key? = some k)
    (hus : ∀ u ∈ us, ∃ k, u.key? = some k) :
    keys? ts = keys? us ↔ List.Forall₂ (fun t u => t.key? = u.key?) ts us := by
  induction ts generalizing us with
  | nil =>
    cases us with
    | nil => simp
    | cons u us =>
      obtain ⟨l, hl⟩ := hus u List.mem_cons_self
      simp [keys?, hl]
  | cons t ts ih =>
    obtain ⟨k, hk⟩ := hts t List.mem_cons_self
    have hts' : ∀ t ∈ ts, ∃ k, t.key? = some k := fun u hu => hts u (List.mem_cons_of_mem _ hu)
    obtain ⟨ks, hks⟩ := keys?_eq_some hts'
    cases us with
    | nil => simp [keys?, hk, hks]
    | cons u us =>
      obtain ⟨l, hl⟩ := hus u List.mem_cons_self
      have hus' : ∀ u ∈ us, ∃ k, u.key? = some k := fun v hv => hus v (List.mem_cons_of_mem _ hv)
      obtain ⟨ls, hls⟩ := keys?_eq_some hus'
      rw [List.forall₂_cons, ← ih hts' hus']
      simp [keys?, hk, hks, hl, hls]

theorem straddles_tuple {ts us : List ValueTree} : (tuple ts).Straddles (tuple us) ↔
    ∃ (i : Nat) (t u : ValueTree), ts[i]? = some t ∧ us[i]? = some u ∧ t.Straddles u := by
  constructor
  · rintro ⟨⟩
    exact ⟨_, _, _, ‹_›, ‹_›, ‹_›⟩
  · rintro ⟨i, t, u, ht, hu, inside⟩
    exact .tuple ht hu inside

theorem equal_tuple {ts us : List ValueTree} : (tuple ts).Equal (tuple us) ↔
    List.Forall₂ Equal ts us := by
  constructor
  · intro h
    cases h with
    | number ht => cases ht
    | tuple items => exact items
  · exact .tuple

theorem forall₂_congr_mem {α : Type} {R S : α → α → Prop} {as bs : List α}
    (h : ∀ a ∈ as, ∀ b ∈ bs, R a b ↔ S a b) : List.Forall₂ R as bs ↔ List.Forall₂ S as bs := by
  induction as generalizing bs with
  | nil => simp
  | cons a as ih =>
    cases bs with
    | nil => simp
    | cons b bs =>
      rw [List.forall₂_cons, List.forall₂_cons, h a List.mem_cons_self b List.mem_cons_self,
        ih fun c hc d hd => h c (List.mem_cons_of_mem _ hc) d (List.mem_cons_of_mem _ hd)]

theorem forall₂_except {α : Type} {P Q : α → α → Prop} {as bs : List α} :
    List.Forall₂ (fun a b => P a b ∧ ¬ Q a b) as bs ↔
      List.Forall₂ P as bs ∧
        ¬ ∃ (i : Nat) (a b : α), as[i]? = some a ∧ bs[i]? = some b ∧ Q a b := by
  induction as generalizing bs with
  | nil => simp
  | cons a as ih =>
    cases bs with
    | nil => simp
    | cons b bs =>
      rw [List.forall₂_cons, List.forall₂_cons, ih]
      constructor
      · rintro ⟨⟨hP, hQ⟩, hrest, hnone⟩
        refine ⟨⟨hP, hrest⟩, ?_⟩
        rintro ⟨i, c, d, hc, hd, hcd⟩
        cases i with
        | zero =>
          cases hc
          cases hd
          exact hQ hcd
        | succ i => exact hnone ⟨i, c, d, by simpa using hc, by simpa using hd, hcd⟩
      · rintro ⟨⟨hP, hrest⟩, hnone⟩
        exact ⟨⟨hP, fun hQ => hnone ⟨0, a, b, rfl, rfl, hQ⟩⟩, hrest,
          fun ⟨i, c, d, hc, hd, hcd⟩ => hnone ⟨i + 1, c, d, by simpa, by simpa, hcd⟩⟩

/-- Values of different kinds are not equal and have different keys. -/
theorem key?_eq_iff_of_kind (ht : t.Comparable)
    (h : t.kind = u.kind → (t.key? = u.key? ↔ t.Equal u ∧ ¬ t.Straddles u)) :
    t.key? = u.key? ↔ t.Equal u ∧ ¬ t.Straddles u := by
  by_cases hkind : t.kind = u.kind
  · exact h hkind
  · obtain ⟨k, hk⟩ := ht.exists_key
    refine iff_of_false (fun hkey => hkind ?_) fun heq => hkind heq.1.kind_eq
    rw [← kindOf_key hk, kindOf_key (hkey ▸ hk)]

/-- Two values have one key if they are equal, and do not straddle the least integer. -/
theorem key?_eq_iff (ht : t.Comparable) (hu : u.Comparable) :
    t.key? = u.key? ↔ t.Equal u ∧ ¬ t.Straddles u := by
  induction ht generalizing u with
  | none =>
    refine key?_eq_iff_of_kind .none fun hkind => ?_
    cases hu with
    | none => exact ⟨fun _ => ⟨.none, nofun⟩, fun _ => rfl⟩
    | number hu => cases hkind.trans (kind_of_number hu)
    | _ => cases hkind
  | @number t m ht =>
    refine key?_eq_iff_of_kind (.number ht) fun hkind => ?_
    rw [kind_of_number ht] at hkind
    cases hu with
    | number hu =>
      rw [key?_eq_of_number ht hu]
      refine and_congr_left fun _ => ⟨fun hmn => .number ht (hmn ▸ hu), fun h => h.of_number ht hu⟩
    | _ => cases hkind
  | str s =>
    refine key?_eq_iff_of_kind (.str s) fun hkind => ?_
    cases hu with
    | str s' =>
      rw [key?, key?, Option.some.injEq, Key.str.injEq]
      constructor
      · rintro rfl
        exact ⟨.str s, nofun⟩
      · rintro ⟨h, -⟩
        cases h with
        | number ht => cases ht
        | str => rfl
    | number hu => cases hkind.trans (kind_of_number hu)
    | _ => cases hkind
  | @tuple ts items ih =>
    refine key?_eq_iff_of_kind (.tuple items) fun hkind => ?_
    cases hu with
    | @tuple us items' =>
      have hts : ∀ t ∈ ts, ∃ k, t.key? = some k := fun t ht => (items t ht).exists_key
      have hus : ∀ u ∈ us, ∃ k, u.key? = some k := fun u hu => (items' u hu).exists_key
      calc (tuple ts).key? = (tuple us).key? ↔ keys? ts = keys? us :=
            (Option.map_injective fun _ _ => Key.tuple.inj).eq_iff
        _ ↔ List.Forall₂ (fun t u => t.key? = u.key?) ts us := keys?_eq_iff hts hus
        _ ↔ List.Forall₂ (fun t u => t.Equal u ∧ ¬ t.Straddles u) ts us :=
            forall₂_congr_mem fun t ht u hu => ih t ht (items' u hu)
        _ ↔ (tuple ts).Equal (tuple us) ∧ ¬ (tuple ts).Straddles (tuple us) := by
            rw [forall₂_except, equal_tuple, straddles_tuple]
    | number hu => cases hkind.trans (kind_of_number hu)
    | _ => cases hkind

theorem Shows.hashable {heap : Heap} {h : Handle} (ht : t.Comparable) (hshows : heap.Shows h t) :
    heap.Hashable h := by
  induction ht generalizing h with
  | number ht =>
    rename_i t n
    obtain ⟨found, -⟩ := hshows
    cases t with
    | bool b => exact .scalar found rfl
    | int i => exact .scalar found rfl
    | float x => exact .scalar found rfl
    | _ => cases ht
  | @tuple ts items ih =>
    obtain ⟨found, shown⟩ := hshows
    refine .tuple found fun k hk => ?_
    rw [List.filterMap_map, Function.id_comp, List.filterMap_some] at hk
    obtain ⟨i, hi, rfl⟩ := List.getElem_of_mem hk
    exact ih _ (List.get_mem _ _) (shown.get hi (shown.length_eq ▸ hi))
  | _ =>
    obtain ⟨found, -⟩ := hshows
    exact .scalar found rfl

theorem Shows.keyAt_eq {heap : Heap} {h : Handle} (ht : t.Comparable) (hshows : heap.Shows h t) :
    heap.keyAt h = some t.key? := by
  obtain ⟨key, hkey⟩ := Heap.hashable_iff.1 (Shows.hashable ht hshows)
  rw [hkey, Shows.key?_eq hshows hkey]

end ValueTree

open ValueTree

variable {U : Type} {env : Env U} {w : World U} {E : Multiset Handle} {h k : Handle}
  {t u : ValueTree} {n : Nat}

theorem leaders_pair {α κ : Type} [DecidableEq κ] (key : α → κ) (a b : α) :
    leaders key [] [a, b] = if key a = key b then [a] else [a, b] := by
  by_cases hab : key a = key b <;> simp [leaders, hab]

/-- A set takes two objects for one if they show equal values, the least integer excepted: it and
the float that denotes it are two. -/
theorem newSet_pair (deep : env.Deep n) (hlive : w.heap.stats.live ≤ n)
    (hx : Exact .blank (↑[h, k] + E) w) (ht : w.heap.Shows h t) (hu : w.heap.Shows k u)
    (htc : t.Comparable) (huc : u.Comparable) :
    ∃ s w', newSet [h, k] env w = .done (some s) w' ∧ w'.pending = w.pending ∧
      Exact .blank ({s} + E) w' ∧
      (w'.heap.payload? s = some (.set [h]) ↔ t.Equal u ∧ ¬ t.Straddles u) ∧
      (w'.heap.payload? s = some (.set [h, k]) ↔ ¬ (t.Equal u ∧ ¬ t.Straddles u)) := by
  have hashable : ∀ j ∈ [h, k], w.heap.Hashable j := by
    intro j hj
    rcases List.mem_pair.1 hj with rfl | rfl
    · exact Shows.hashable htc ht
    · exact Shows.hashable huc hu
  obtain ⟨s, w', hrun, -, hpending, hfound, -, hx'⟩ := newSet_hashable deep hlive hx hashable
  have hkeys : w.heap.keyAt h = w.heap.keyAt k ↔ t.Equal u ∧ ¬ t.Straddles u := by
    rw [Shows.keyAt_eq htc ht, Shows.keyAt_eq huc hu, Option.some.injEq]
    exact key?_eq_iff htc huc
  rw [leaders_pair] at hfound
  refine ⟨s, w', hrun, hpending, hx', ?_⟩
  rw [hfound, ← hkeys]
  split <;> simp_all

open Callable

/-- One is equal to 1.0, in a set too. -/
theorem newSet_pair_one : (int 1).Equal (float ⟨0x3ff0000000000000⟩) ∧
    ∃ s w', newSet [⟨0, 0⟩, ⟨1, 0⟩] (failing putAside) barredWorld = .done (some s) w' ∧
      w'.heap.payload? s = some (.set [⟨0, 0⟩]) := by
  have hone : Binary64.number? ⟨0x3ff0000000000000⟩ = some (.finite ((1 : ℤ) : ℚ)) :=
    Binary64.integer?_eq_some_iff.1 (by decide)
  have htc : (int 1).Comparable := .number rfl
  have huc : (float ⟨0x3ff0000000000000⟩).Comparable := .number hone
  have hequal := (key?_eq_iff htc huc).1 (by decide)
  obtain ⟨s, w', hrun, -, -, hone, -⟩ := newSet_pair (E := {⟨2, 0⟩}) (h := ⟨0, 0⟩) (k := ⟨1, 0⟩)
    (w := barredWorld) (tie_deep (fun _ u => u) (failingHooks putAside) 8) (by decide)
    (Eq.mp (congrArg (fun H => Exact ownerless H barredWorld) (by decide)) barredWorld_exact)
    (.intro rfl .nil) (.intro rfl .nil) htc huc
  exact ⟨hequal.1, s, w', hrun, hone.2 hequal⟩

def leastWorld : World Unit :=
  { echoWorld with
    heap := ((Heap.empty.insert (.int Int64.minValue)).2.insert (.float leastInteger)).2 }

/-- They are equal, and a set keeps both. -/
theorem newSet_keeps_both : (int Int64.minValue).Equal (float leastInteger) ∧
    leastWorld.heap.Shows ⟨0, 0⟩ (int Int64.minValue) ∧
    leastWorld.heap.Shows ⟨1, 0⟩ (float leastInteger) ∧
    ∃ s w', newSet [⟨0, 0⟩, ⟨1, 0⟩] (failing putAside) leastWorld = .done (some s) w' ∧
      w'.heap.payload? s = some (.set [⟨0, 0⟩, ⟨1, 0⟩]) := by
  refine ⟨.number rfl (leastInteger_number.trans ?_), .intro rfl .nil,
    .intro rfl .nil, _, _, rfl, rfl⟩
  rw [← Int64.toInt_minValue]

end Causeway
