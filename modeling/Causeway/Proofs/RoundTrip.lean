import Causeway.Proofs.Encoding
import Causeway.Proofs.Walks
/-!
# Values that go out and come back

A value without handles that goes out and comes in again is the value it was, but for options: an
option shows as its value, so one whose value shows as the peer's null comes back empty. Going out
and coming in leave nothing behind, and what went out can be given back.
-/
set_option autoImplicit false

namespace Causeway

open Act

variable {U α : Type} {env : Env U} {base : Handle → Option HeapEntry}
  {own : Multiset (Handle × HeapEntry)} {units : Multiset Handle} {w w' : World U} {e h : Handle}
  {p : Payload} {look : Handle → Payload → Prop}

namespace NativeType

def Plain : NativeType → Prop
  | .object | .view _ | .callable => False
  | .option t | .vec t => t.Plain
  | .pair a b => a.Plain ∧ b.Plain
  | .triple a b c => a.Plain ∧ b.Plain ∧ c.Plain
  | _ => True

/-- No option directly over an option or the unit. -/
def Distinct : NativeType → Prop
  | .option .unit | .option (.option _) => False
  | .option t | .vec t => t.Distinct
  | .pair a b => a.Distinct ∧ b.Distinct
  | .triple a b c => a.Distinct ∧ b.Distinct ∧ c.Distinct
  | _ => True

def isNull : (t : NativeType) → t.Value → Bool
  | .unit, _ | .option _, none => true
  | .option t, some v => t.isNull v
  | _, _ => false

/-- The value with every option emptied whose value goes out as null. -/
def norm : (t : NativeType) → t.Value → t.Value
  | .option _, none => none
  | .option t, some v => if t.isNull v then none else some (t.norm v)
  | .pair a b, (x, y) => (a.norm x, b.norm y)
  | .triple a b c, (x, y, z) => (a.norm x, b.norm y, c.norm z)
  | .vec t, vs => List.map t.norm vs
  | .i64, v => v
  | .i32, v => v
  | .usize, v => v
  | .f64, v => v
  | .bool, v => v
  | .text, v => v
  | .unit, v => v
  | .object, v => v
  | .view _, v => v
  | .callable, v => v

theorem isNull_eq_false : (t : NativeType) → t ≠ .unit → (∀ s, t ≠ .option s) → (v : t.Value) →
    t.isNull v = false
  | .unit, h, _, _ => absurd rfl h
  | .option s, _, h, _ => absurd rfl (h s)
  | .i64, _, _, _ | .i32, _, _, _ | .usize, _, _, _ | .f64, _, _, _ | .bool, _, _, _
  | .text, _, _, _ | .object, _, _, _ | .pair _ _, _, _, _ | .triple _ _ _, _, _, _
  | .vec _, _, _, _ | .view _, _, _, _ | .callable, _, _, _ => rfl

theorem Distinct.option {t : NativeType} (h : (option t).Distinct) :
    t ≠ .unit ∧ (∀ s, t ≠ .option s) ∧ t.Distinct := by
  cases t with
  | unit | option _ => exact h.elim
  | _ => exact ⟨nofun, nofun, h⟩

theorem norm_eq_self : (t : NativeType) → t.Distinct → (v : t.Value) → t.norm v = v
  | .i64, _, _ | .i32, _, _ | .usize, _, _ | .f64, _, _ | .bool, _, _ | .text, _, _ | .unit, _, _
  | .object, _, _ | .view _, _, _ | .callable, _, _ | .option _, _, none => rfl
  | .option t, hd, some v => by
    obtain ⟨hunit, hoption, hd⟩ := hd.option
    rw [norm, isNull_eq_false t hunit hoption v, norm_eq_self t hd v]
    rfl
  | .pair a b, hd, (x, y) => by rw [norm, norm_eq_self a hd.1 x, norm_eq_self b hd.2 y]
  | .triple a b c, hd, (x, y, z) => by
    rw [norm, norm_eq_self a hd.1 x, norm_eq_self b hd.2.1 y, norm_eq_self c hd.2.2 z]
  | .vec t, hd, vs => by
    have hid : t.norm = id := funext fun v => norm_eq_self t hd v
    rw [norm, hid]
    exact List.map_id _

theorem Plain.units_eq : (t : NativeType) → t.Plain → (v : t.Value) → t.units v = []
  | .i64, _, _ | .i32, _, _ | .usize, _, _ | .f64, _, _ | .bool, _, _ | .text, _, _ | .unit, _, _
  | .option _, _, none => rfl
  | .object, h, _ | .view _, h, _ | .callable, h, _ => h.elim
  | .option t, h, some v => Plain.units_eq t h v
  | .pair a b, h, (x, y) => by
    rw [NativeType.units, Plain.units_eq a h.1 x, Plain.units_eq b h.2 y]
    rfl
  | .triple a b c, h, (x, y, z) => by
    rw [NativeType.units, Plain.units_eq a h.1 x, Plain.units_eq b h.2.1 y,
      Plain.units_eq c h.2.2 z]
    rfl
  | .vec t, h, vs => List.flatMap_eq_nil_iff.2 fun v _ => Plain.units_eq t h v

/-- A value without handles shows in its own object whether it went out as null. -/
theorem Encodes.null : (t : NativeType) → t.Plain → (v : t.Value) → (e : Handle) →
    t.Encodes look v e → ∃ p, look e p ∧ p.isNone = t.isNull v
  | .i64, _, _, _, h | .i32, _, _, _, h | .usize, _, _, _, h | .f64, _, _, _, h | .bool, _, _, _, h
  | .text, _, _, _, h | .unit, _, _, _, h | .option _, _, none, _, h => ⟨_, h, rfl⟩
  | .object, hp, _, _, _ | .view _, hp, _, _, _ | .callable, hp, _, _, _ => hp.elim
  | .option t, hp, some v, e, h => Encodes.null t hp v e h
  | .pair _ _, _, (_, _), _, ⟨_, _, h, _⟩ => ⟨_, h, rfl⟩
  | .triple _ _ _, _, (_, _, _), _, ⟨_, _, _, h, _⟩ => ⟨_, h, rfl⟩
  | .vec _, _, _, _, ⟨_, h, _⟩ => ⟨_, h, rfl⟩

end NativeType

def OfBase (base : Handle → Option HeapEntry) (e : Handle) (p : Payload) : Prop :=
  ∃ n, base e = some ⟨n, p⟩

theorem Overlay.payload?_ofBase (ho : Overlay base own units w.heap) (h : OfBase base e p) :
    w.heap.payload? e = some p := by
  obtain ⟨n, hn⟩ := h
  exact ho.payload?_base hn

def Restored (base : Handle → Option HeapEntry) (own : Multiset (Handle × HeapEntry))
    (units : Multiset Handle) (a b : α) (w : World U) : Prop :=
  b = a ∧ w.pending = none ∧ Overlay base own units w.heap

theorem intFromPeer_run {i : Int64} (hp : w.heap.payload? e = some (.int i)) (env : Env U) :
    intFromPeer e env w = .done (some i) w := by
  simp [intFromPeer, asInt, askPayload, bind_run, Act.heap, hp, Payload.asInt?, pure_run]

theorem i32_run {v : Int32} (hp : w.heap.payload? e = some (.int v.toInt64)) (env : Env U) :
    fromPeer .i32 e env w = .done (some v) w := by
  have hrange : Int32.minValue.toInt ≤ v.toInt64.toInt ∧
      v.toInt64.toInt ≤ Int32.maxValue.toInt := by
    rw [Int32.toInt_toInt64]
    exact ⟨Int32.minValue_le_toInt v, Int32.toInt_le v⟩
  have hback : Int32.ofInt v.toInt64.toInt = v := by
    rw [Int32.toInt_toInt64, Int32.ofInt_toInt]
  rw [fromPeer, bind_run, intFromPeer_run hp]
  dsimp only
  rw [if_pos hrange, hback]
  rfl

theorem usize_run {v : UInt64} (hv : v.toNat < 2 ^ 63)
    (hp : w.heap.payload? e = some (.int (Int64.ofNat v.toNat))) (env : Env U) :
    fromPeer .usize e env w = .done (some v) w := by
  have hint : (Int64.ofNat v.toNat).toInt = v.toNat := Int64.toInt_ofNat_of_lt hv
  have hback : UInt64.ofNat (Int64.ofNat v.toNat).toInt.toNat = v := by
    rw [hint, Int.toNat_natCast, UInt64.ofNat_toNat]
  rw [fromPeer, bind_run, intFromPeer_run hp]
  dsimp only
  rw [if_pos (by omega), hback]
  rfl

theorem Restored.of_done {act : Act U α} {a : α} (hrun : act env w = .done a w)
    (ho : Overlay base own units w.heap) (clear : w.pending = none) :
    (act env w).Settles False (Restored base own units a) := by
  rw [hrun]
  exact ⟨rfl, clear, ho⟩

theorem f64_run {v : Binary64} (hp : w.heap.payload? e = some (.float v)) (env : Env U) :
    fromPeer .f64 e env w = .done (some v) w := by
  simp [fromPeer, asFloat, askPayload, bind_run, Act.heap, hp, Payload.asFloat?, pure_run]

theorem text_run {v : String} (hp : w.heap.payload? e = some (.str v)) (env : Env U) :
    fromPeer .text e env w = .done (some v) w := by
  simp [fromPeer, asText, askPayload, bind_run, Act.heap, hp, Payload.asText?, pure_run]

theorem bool_run {v : Bool} (hp : w.heap.payload? e = some (.bool v)) (env : Env U) :
    fromPeer .bool e env w = .done (some v) w := by
  have hrun : isTruthy e env w = .done v w := by
    simp [isTruthy, askPayload, bind_run, Act.heap, hp, Payload.isTruthy, pure_run]
  change (isTruthy e >>= fun b => pure (some b)) env w = _
  rw [bind_run, hrun]
  rfl

theorem isNoneObject_run (hp : w.heap.payload? e = some p) (env : Env U) :
    isNoneObject e env w = .done p.isNone w := by
  simp [isNoneObject, askPayload, bind_run, Act.heap, hp, pure_run]

theorem NativeType.Encodes.alive {t : NativeType} (ht : t.Plain) {v : t.Value}
    (h : t.Encodes (OfBase base) v e) : ∃ entry, base e = some entry := by
  obtain ⟨p, ⟨n, hbase⟩, -⟩ := NativeType.Encodes.null t ht v e h
  exact ⟨_, hbase⟩

/-- A tuple of as many items as expected gives units on them. -/
theorem expectTuple_overlay (items : List Handle) (htuple : OfBase base e (.tuple (items.map some)))
    (halive : ∀ h ∈ items, ∃ entry, base h = some entry) (ho : Overlay base own units w.heap)
    (env : Env U) :
    ∃ w', expectTuple e items.length env w = .done (some items) w' ∧ w'.pending = w.pending ∧
      Overlay base own (↑items + units) w'.heap := by
  obtain ⟨w', hacquire, hpending, ho'⟩ := acquireAll_overlay items ho halive env
  have hrun : tupleItems e env w = .done (some items) w' := by
    simp only [tupleItems, bind_run, Act.heap, ho.payload?_ofBase htuple, List.filterMap_map]
    change (acquireAll (items.filterMap some) >>= fun hs => pure (some hs)) env w = _
    rw [List.filterMap_some, bind_run, hacquire]
    rfl
  refine ⟨w', ?_, hpending, ho'⟩
  rw [expectTuple, bind_run, hrun]
  dsimp only
  rw [if_pos rfl]
  rfl

theorem pair_restored {a b : NativeType} {x : a.Value} {y : b.Value} {h k : Handle}
    (deep : env.Deep 1) (htuple : OfBase base e (.tuple [some h, some k]))
    (halive : ∀ i ∈ [h, k], ∃ entry, base i = some entry)
    (hx : ∀ {own units} {w : World U}, Overlay base own units w.heap → w.pending = none →
      (fromPeer a h env w).Settles False (Restored base own units (some (a.norm x))))
    (hy : ∀ {own units} {w : World U}, Overlay base own units w.heap → w.pending = none →
      (fromPeer b k env w).Settles False (Restored base own units (some (b.norm y))))
    (ho : Overlay base own units w.heap) (clear : w.pending = none) :
    (fromPeer (.pair a b) e env w).Settles False
      (Restored base own units (some (a.norm x, b.norm y))) := by
  obtain ⟨w₁, htaken, hpending₁, ho₁⟩ := expectTuple_overlay [h, k] htuple halive ho env
  rw [fromPeer, bind_run, show expectTuple e 2 env w = _ from htaken]
  refine (holding_settles [h, k] (hx ho₁ (hpending₁.trans clear))).bind fun r w₂ _ h₂ => ?_
  obtain ⟨-, rfl, clear₂, ho₂⟩ := h₂
  refine (holding_settles (a.units (a.norm x) ++ [h, k]) (hy ho₂ clear₂)).bind fun r w₃ _ h₃ => ?_
  obtain ⟨-, rfl, clear₃, ho₃⟩ := h₃
  obtain ⟨w₄, hgiven, hpending₄, ho₄⟩ := releaseAll_shared [h, k] deep ho₃
  dsimp only
  rw [bind_run, hgiven]
  exact ⟨rfl, hpending₄.trans clear₃, ho₄⟩

theorem triple_restored {a b c : NativeType} {x : a.Value} {y : b.Value} {z : c.Value}
    {h k l : Handle} (deep : env.Deep 1) (htuple : OfBase base e (.tuple [some h, some k, some l]))
    (halive : ∀ i ∈ [h, k, l], ∃ entry, base i = some entry)
    (hx : ∀ {own units} {w : World U}, Overlay base own units w.heap → w.pending = none →
      (fromPeer a h env w).Settles False (Restored base own units (some (a.norm x))))
    (hy : ∀ {own units} {w : World U}, Overlay base own units w.heap → w.pending = none →
      (fromPeer b k env w).Settles False (Restored base own units (some (b.norm y))))
    (hz : ∀ {own units} {w : World U}, Overlay base own units w.heap → w.pending = none →
      (fromPeer c l env w).Settles False (Restored base own units (some (c.norm z))))
    (ho : Overlay base own units w.heap) (clear : w.pending = none) :
    (fromPeer (.triple a b c) e env w).Settles False
      (Restored base own units (some (a.norm x, b.norm y, c.norm z))) := by
  obtain ⟨w₁, htaken, hpending₁, ho₁⟩ := expectTuple_overlay [h, k, l] htuple halive ho env
  rw [fromPeer, bind_run, show expectTuple e 3 env w = _ from htaken]
  refine (holding_settles [h, k, l] (hx ho₁ (hpending₁.trans clear))).bind fun r w₂ _ h₂ => ?_
  obtain ⟨-, rfl, clear₂, ho₂⟩ := h₂
  refine (holding_settles (a.units (a.norm x) ++ [h, k, l]) (hy ho₂ clear₂)).bind
    fun r w₃ _ h₃ => ?_
  obtain ⟨-, rfl, clear₃, ho₃⟩ := h₃
  refine (holding_settles (b.units (b.norm y) ++ a.units (a.norm x) ++ [h, k, l])
    (hz ho₃ clear₃)).bind fun r w₄ _ h₄ => ?_
  obtain ⟨-, rfl, clear₄, ho₄⟩ := h₄
  obtain ⟨w₅, hgiven, hpending₅, ho₅⟩ := releaseAll_shared [h, k, l] deep ho₄
  dsimp only
  rw [bind_run, hgiven]
  exact ⟨rfl, hpending₅.trans clear₄, ho₅⟩

theorem firstValues_some {β : Type} (g : β → α) (xs : List β) :
    firstValues (fun x => some (g x)) xs = xs.map g := by
  induction xs with
  | nil => rfl
  | cons x xs ih => rw [firstValues, ih, List.map_cons]

section

variable {t : NativeType} {vs : List t.Value} {hs : List Handle}

theorem discard_plain {astray : Prop} (ht : t.Plain) (v : t.Value)
    (ho : Overlay base own (↑((builtinIntake (U := U) t).units v) + units) w.heap) :
    ((builtinIntake t).discard v env w).Settles astray fun _ w' =>
      w'.pending = w.pending ∧ Overlay base own units w'.heap := by
  simp only [Intake.discard, builtinIntake, NativeType.Plain.units_eq t ht] at ho ⊢
  exact ⟨rfl, ho.congr rfl (zero_add units)⟩

/-- The conversion of the items of a list, beside the value each of them is of. -/
theorem items_read (ht : t.Plain)
    (hitem : ∀ x ∈ hs.zip vs, ∀ {own units} {w : World U}, Overlay base own units w.heap →
      w.pending = none →
      (fromPeer t x.1 env w).Settles False (Restored base own units (some (t.norm x.2)))) :
    Intake.Reads False env base (builtinIntake t) (hs.zip vs)
      (fun x => (Item.held x.1).Stands) fun x => some (t.norm x.2) where
  convert := by
    intro x e T V own units w hx his ho clear
    obtain ⟨rfl, rfl, rfl⟩ := his
    refine (hitem x hx ho clear).mono fun r w' _ h => ?_
    obtain ⟨rfl, clear', ho'⟩ := h
    refine ⟨if_pos clear', ho'.congr rfl ?_⟩
    simp only [unitsIf, builtinIntake, NativeType.Plain.units_eq t ht, Multiset.coe_nil, zero_add]
  discard := discard_plain ht _

theorem vec_restored (ht : t.Plain) (deep : env.Deep 2) (room : vs.length * t.width < 2 ^ 63)
    (hlist : OfBase base e (.list hs))
    (hencodes : List.Forall₂ (t.Encodes (OfBase base)) vs hs)
    (budget : (vs.map t.size).sum < env.budget)
    (hitem : ∀ v ∈ vs, ∀ k, t.Encodes (OfBase base) v k → ∀ {own units} {w : World U},
      Overlay base own units w.heap → w.pending = none →
      (fromPeer t k env w).Settles False (Restored base own units (some (t.norm v))))
    (ho : Overlay base own units w.heap) (clear : w.pending = none) :
    (fromPeer (.vec t) e env w).Settles False (Restored base own units (some (vs.map t.norm))) := by
  obtain ⟨n, hbase⟩ := hlist
  obtain ⟨hlength, hzip⟩ := List.forall₂_iff_zip.1 hencodes.flip
  have hlists : (Payload.list hs).Lists ((hs.zip vs).map fun x => .held x.1) := by
    have hfst : ((hs.zip vs).map fun x => Item.held x.1) = hs.map .held := by
      change (hs.zip vs).map (Item.held ∘ Prod.fst) = _
      rw [← List.map_map, List.map_fst_zip hlength.le]
    rw [hfst]
    exact .list hs
  have hcount : vs.length ≤ (vs.map t.size).sum := by
    have hone : ∀ n ∈ vs.map t.size, 1 ≤ n := List.forall_mem_map.2 fun v _ => t.size_pos v
    simpa using List.length_le_sum_of_one_le (vs.map t.size) hone
  have hkept (h : Handle) (hh : .held h ∈ (hs.zip vs).map fun x => Item.held x.1) :
      ∃ entry, base h = some entry := by
    obtain ⟨x, hx, heq⟩ := List.mem_map.1 hh
    cases heq
    exact NativeType.Encodes.alive ht (hzip hx)
  have hopens : Opens False env base e ((Payload.list hs).Before e) :=
    builtin_opens hlists hbase rfl
  have hwalk : Walk False env base (hs.zip vs) ((Payload.list hs).Before e)
      fun x => (Item.held x.1).Stands := builtin_walk deep hlists hbase rfl hkept
  have hreads := items_read ht fun x hx => hitem x.2 (List.of_mem_zip hx).2 x.1 (hzip hx)
  have hvalues : firstValues (fun x => some (t.norm x.2)) (hs.zip vs) = vs.map t.norm := by
    rw [firstValues_some]
    change (hs.zip vs).map (t.norm ∘ Prod.snd) = _
    rw [← List.map_map, List.map_snd_zip hlength.ge]
  have hcollect : (collectObject (builtinIntake t) e env w).Settles False
      fun r w' => r = .ok (vs.map t.norm) ∧ w'.pending = none ∧ Overlay base own units w'.heap := by
    refine (make_overlay hopens hwalk hbase ho clear).bind fun r w₁ _ h₁ => ?_
    obtain ⟨rfl, clear₁, ho₁⟩ := h₁
    have hpass := collect_overlay hopens hwalk hreads (by simp [hvalues, hlength]) ho₁ clear₁
      (by simpa [hlength] using hcount.trans_lt budget)
    have hroom : (hs.map Item.held).length * (builtinIntake (U := U) t).width < 2 ^ 63 := by
      rw [List.length_map, hlength]
      exact room
    rw [← collectSized_builtin _ (.list hs) hroom (ho₁.payload?_base hbase)] at hpass
    refine (holding_settles [e] hpass).bind fun r w₂ _ h₂ => ?_
    obtain ⟨-, rfl, clear₂, ho₂⟩ := h₂
    rw [hvalues] at ho₂ ⊢
    have hnone : (vs.map t.norm).flatMap (builtinIntake (U := U) t).units = [] :=
      List.flatMap_eq_nil_iff.2 fun v _ => NativeType.Plain.units_eq t ht v
    obtain ⟨w₃, hrelease, hpending₃, ho₃⟩ := release_shared deep
      (ho₂.congr rfl (by rw [hnone, Multiset.coe_nil, zero_add]))
    rw [bind_run, hrelease]
    exact ⟨rfl, hpending₃.trans clear₂, ho₃⟩
  rw [fromPeer]
  refine hcollect.bind fun r w' _ h => ?_
  obtain ⟨rfl, clear', ho'⟩ := h
  exact ⟨rfl, clear', ho'⟩

end

/-- What a value without handles became converts back to it, but for options. -/
theorem fromPeer_overlay (deep : env.Deep 2) : (t : NativeType) → t.Plain → (v : t.Value) →
    (e : Handle) → t.Roomy v → t.Fits v → t.Encodes (OfBase base) v e → t.size v ≤ env.budget →
    ∀ {own units} {w : World U}, Overlay base own units w.heap → w.pending = none →
    (fromPeer t e env w).Settles False (Restored base own units (some (t.norm v)))
  | .i64, _, v, e, _, _, h, _, _, _, w, ho, clear =>
    Restored.of_done (intFromPeer_run (ho.payload?_ofBase h) env) ho clear
  | .i32, _, v, e, _, _, h, _, _, _, w, ho, clear =>
    Restored.of_done (i32_run (ho.payload?_ofBase h) env) ho clear
  | .usize, _, v, e, _, hfits, h, _, _, _, w, ho, clear =>
    Restored.of_done (usize_run hfits (ho.payload?_ofBase h) env) ho clear
  | .f64, _, v, e, _, _, h, _, _, _, w, ho, clear =>
    Restored.of_done (f64_run (ho.payload?_ofBase h) env) ho clear
  | .bool, _, v, e, _, _, h, _, _, _, w, ho, clear =>
    Restored.of_done (bool_run (ho.payload?_ofBase h) env) ho clear
  | .text, _, v, e, _, _, h, _, _, _, w, ho, clear =>
    Restored.of_done (text_run (ho.payload?_ofBase h) env) ho clear
  | .unit, _, v, e, _, _, h, _, _, _, w, ho, clear =>
    Restored.of_done rfl ho clear
  | .object, ht, _, _, _, _, _, _, _, _, _, _, _ | .view _, ht, _, _, _, _, _, _, _, _, _, _, _
  | .callable, ht, _, _, _, _, _, _, _, _, _, _, _ => ht.elim
  | .option t, _, none, e, _, _, h, _, _, _, w, ho, clear => by
    rw [fromPeer, bind_run, isNoneObject_run (ho.payload?_ofBase h)]
    exact ⟨rfl, clear, ho⟩
  | .option t, ht, some v, e, room, hfits, h, budget, _, _, w, ho, clear => by
    obtain ⟨p, hp, hnull⟩ := NativeType.Encodes.null t ht v e h
    rw [fromPeer, bind_run, isNoneObject_run (ho.payload?_ofBase hp), hnull, NativeType.norm]
    cases t.isNull v with
    | true => exact ⟨rfl, clear, ho⟩
    | false =>
      refine (fromPeer_overlay deep t ht v e room hfits h budget ho clear).bind fun r w' _ hr => ?_
      obtain ⟨rfl, clear', ho'⟩ := hr
      exact ⟨rfl, clear', ho'⟩
  | .pair a b, ht, (x, y), e, room, hfits, ⟨h, k, htuple, hx, hy⟩, budget, _, _, w, ho, clear => by
    have hsize : 1 + (a.size x + b.size y) ≤ env.budget := budget
    exact pair_restored (deep.of_le (by omega)) htuple
      (by simpa using ⟨hx.alive ht.1, hy.alive ht.2⟩)
      (fromPeer_overlay deep a ht.1 x h room.1 hfits.1 hx (by omega))
      (fromPeer_overlay deep b ht.2 y k room.2 hfits.2 hy (by omega)) ho clear
  | .triple a b c, ht, (x, y, z), e, room, hfits, ⟨h, k, l, htuple, hx, hy, hz⟩, budget, _, _, w, ho,
      clear => by
    have hsize : 1 + (a.size x + (b.size y + c.size z)) ≤ env.budget := budget
    exact triple_restored (deep.of_le (by omega)) htuple
      (by simpa using ⟨hx.alive ht.1, hy.alive ht.2.1, hz.alive ht.2.2⟩)
      (fromPeer_overlay deep a ht.1 x h room.1 hfits.1 hx (by omega))
      (fromPeer_overlay deep b ht.2.1 y k room.2.1 hfits.2.1 hy (by omega))
      (fromPeer_overlay deep c ht.2.2 z l room.2.2 hfits.2.2 hz (by omega)) ho clear
  | .vec t, ht, vs, e, room, hfits, ⟨hs, hlist, hitems⟩, budget, _, _, w, ho, clear => by
    have hsize : 1 + (List.map t.size vs).sum ≤ env.budget := budget
    refine vec_restored ht deep
      (lt_of_le_of_lt (Nat.mul_le_mul_left _ (le_max_right _ _)) room.1) hlist hitems (by omega)
      (fun v hv k hk => ?_) ho clear
    have hle : t.size v ≤ (List.map t.size vs).sum :=
      List.single_le_sum (fun _ _ => Nat.zero_le _) _ (List.mem_map_of_mem hv)
    intro own units w ho clear
    exact fromPeer_overlay deep t ht v k (room.2 v hv) (hfits v hv) hk (by omega) ho clear

theorem Payload.isNone_iff : p.isNone = true ↔ p = .none := by
  cases p <;> simp [Payload.isNone]

/-- Until what was made for it is given back, a value that went out is there to come in again: it
comes in as often as one likes, and nothing changes by that. -/
theorem Encoded.restored {t : NativeType} {v : t.Value} (ht : t.Plain) (deep : env.Deep 2)
    (budget : t.size v ≤ env.budget) (fits : t.Fits v) (room : t.Roomy v)
    (encodes : t.Encodes (Held own) v e) (ho : Overlay base own units w.heap)
    (clear : w.pending = none) :
    ∃ w', fromPeer t e env w = .done (some (t.norm v)) w' ∧ w'.pending = none ∧
      Overlay w.heap.entryAt? 0 0 w'.heap := by
  have hmono (k : Handle) (p : Payload) (h : Held own k p) : OfBase w.heap.entryAt? k p :=
    h.imp fun _ hn => ho.owned _ hn
  obtain ⟨a, w', hrun, rfl, clear', ho'⟩ := (fromPeer_overlay deep t ht v e room fits
    (encodes.mono hmono t v e) budget (.start ho.inOrder) clear).exists_done
  exact ⟨w', hrun, clear', ho'⟩

/-- A value without handles goes out and comes back, if its integers fit, and an error is raised
otherwise. Once what went out is given back, all objects are those there were before, with the units
they had. -/
theorem fromPeer_undoes_toPeer (observe : Log.Event → U → U) (user : Env U → Hooks U)
    {t : NativeType} (ht : t.Plain) (v : t.Value) (room : t.Roomy v) {n : Nat} (hn : t.size v < n)
    (ho : w.heap.InOrder) (clear : w.pending = none) :
    (t.Fits v → ∃ e w₁ w₂ w₃, toPeer t v (.tie observe user n) w = .done (some e) w₁ ∧
      w₁.pending = none ∧ (w₁.heap.payload? e = some .none ↔ t.isNull v = true) ∧
      fromPeer t e (.tie observe user n) w₁ = .done (some (t.norm v)) w₂ ∧ w₂.pending = none ∧
      (∀ h, w₂.heap.entryAt? h = w₁.heap.entryAt? h) ∧
      release e (.tie observe user n) w₂ = .done () w₃ ∧ w₃.pending = none ∧
      ∀ h, w₃.heap.entryAt? h = w.heap.entryAt? h) ∧
    (¬t.Fits v → ∃ w₁, toPeer t v (.tie observe user n) w = .done none w₁ ∧ w₁.pending ≠ none ∧
      ∀ h, w₁.heap.entryAt? h = w.heap.entryAt? h) ∧
    (t.Distinct → t.norm v = v) := by
  have hunits : t.units v = [] := NativeType.Plain.units_eq t ht v
  have hpos : 1 ≤ t.size v := t.size_pos v
  have deep : (Env.tie observe user n).Deep (t.size v + 1) := (tie_deep observe user n).of_le hn
  have budget : t.size v ≤ (Env.tie observe user n).budget := by
    obtain ⟨m, rfl⟩ : ∃ m, n = m + 1 := ⟨n - 1, by omega⟩
    exact Nat.lt_succ_iff.1 hn
  obtain ⟨o, w₁, hout, h₁⟩ :=
    (toPeer_overlay t v room deep (by simp [hunits]) (.start ho) clear).exists_done
  refine ⟨fun hfits => ?_, fun hover => ?_, fun hd => t.norm_eq_self hd v⟩
  · cases h₁ with
    | refused overflow pending overlay => exact absurd hfits overflow
    | @made e _ T fits clear₁ parts encodes ho₁ =>
      rw [add_zero] at ho₁
      obtain ⟨p, hheld, hnull⟩ := NativeType.Encodes.null t ht v e encodes
      -- seen from where the value is out, coming in changes nothing, so it can be forgotten
      obtain ⟨w₂, hback, clear₂, ho₂⟩ :=
        Encoded.restored ht (deep.of_le (by omega)) budget fits room encodes ho₁ clear₁
      obtain ⟨w₃, hrelease, hpending₃, ho₃⟩ := release_overlay deep parts
        ((ho₁.rebase ho₂).congr (add_zero T).symm rfl)
      refine ⟨e, w₁, w₂, w₃, hout, clear₁, ?_, hback, clear₂, ho₂.entryAt?_eq, hrelease,
        hpending₃.trans clear₂, ho₃.entryAt?_eq⟩
      rw [ho₁.payload?_held hheld, ← hnull, Payload.isNone_iff, Option.some.injEq]
  · cases h₁ with
    | made fits _ _ _ _ => exact absurd fits hover
    | refused overflow pending overlay => exact ⟨w₁, hout, pending, overlay.entryAt?_eq⟩

/-- An option over an option comes back empty where the inner one was. -/
theorem fromPeer_undoes_toPeer_nested :
    let w : World Unit := ⟨.empty, none, {}, ()⟩
    let t : NativeType := .vec (.option (.option .usize))
    let env : Env Unit := .tie (fun _ u => u) (fun _ => .exhausted) 5
    ∃ e w₁ w₂ w₃, toPeer t [some (some (7 : UInt64)), some none, none] env w = .done (some e) w₁ ∧
      fromPeer t e env w₁ = .done (some [some (some (7 : UInt64)), none, none]) w₂ ∧
      release e env w₂ = .done () w₃ ∧ ∀ h, w₃.heap.entryAt? h = w.heap.entryAt? h := by
  intro w t env
  have hseven : (7 : UInt64).toNat < 2 ^ 63 := by decide
  have hfits : t.Fits [some (some (7 : UInt64)), some none, none] :=
    List.forall_mem_cons.2 ⟨hseven, List.forall_mem_cons.2 ⟨trivial, List.forall_mem_singleton.2
      trivial⟩⟩
  have hroom : t.Roomy [some (some (7 : UInt64)), some none, none] :=
    ⟨by decide, List.forall_mem_cons.2 ⟨trivial, List.forall_mem_cons.2 ⟨trivial,
      List.forall_mem_singleton.2 trivial⟩⟩⟩
  obtain ⟨e, w₁, w₂, w₃, hout, -, -, hback, -, -, hrelease, -, hsame⟩ :=
    (fromPeer_undoes_toPeer (fun _ u => u) (fun _ => .exhausted) (t := t) trivial
      [some (some (7 : UInt64)), some none, none] hroom (n := 5) (by decide) (w := w)
      Heap.empty_inOrder rfl).1 hfits
  exact ⟨e, w₁, w₂, w₃, hout, hback, hrelease, hsame⟩

end Causeway
