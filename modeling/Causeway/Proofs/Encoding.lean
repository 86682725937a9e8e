import Causeway.Convert.Inward
import Causeway.Proofs.Overlay
import Mathlib.Algebra.Order.BigOperators.Group.List
import Mathlib.Algebra.Order.Group.Nat
/-!
# Encoded values

What a native value becomes when it goes out: objects made for it, each with one unit, that hold one
another as the value does, and units on the objects it names. An integer too large for the peer
undoes all that was made before it.
-/
set_option autoImplicit false

namespace Causeway

open Act

variable {U : Type} {env : Env U} {base : Handle → Option HeapEntry}
  {own S T : Multiset (Handle × HeapEntry)} {units V W : Multiset Handle} {w w' : World U}
  {e h : Handle} {p : Payload} {look look' : Handle → Payload → Prop}

namespace NativeType

def Fits : (t : NativeType) → t.Value → Prop
  | .usize, v => v.toNat < 2 ^ 63
  | .option _, none => True
  | .option t, some v => t.Fits v
  | .pair a b, (x, y) => a.Fits x ∧ b.Fits y
  | .triple a b c, (x, y, z) => a.Fits x ∧ b.Fits y ∧ c.Fits z
  | .vec t, vs => ∀ v, List.Mem v vs → t.Fits v
  | _, _ => True

/-- Every vector of the value lies in one piece, and so would the handles of its items. -/
def Roomy : (t : NativeType) → t.Value → Prop
  | .option t, some v => t.Roomy v
  | .pair a b, (x, y) => a.Roomy x ∧ b.Roomy y
  | .triple a b c, (x, y, z) => a.Roomy x ∧ b.Roomy y ∧ c.Roomy z
  | .vec t, vs =>
    List.length vs * max Handle.width t.width < 2 ^ 63 ∧ ∀ v, List.Mem v vs → t.Roomy v
  | _, _ => True

def size : (t : NativeType) → t.Value → Nat
  | .option t, some v => t.size v
  | .pair a b, (x, y) => 1 + (a.size x + b.size y)
  | .triple a b c, (x, y, z) => 1 + (a.size x + (b.size y + c.size z))
  | .vec t, vs => 1 + (vs.map t.size).sum
  | _, _ => 1

/-- The object is what the value becomes, by what objects are seen to hold. -/
def Encodes (look : Handle → Payload → Prop) : (t : NativeType) → t.Value → Handle → Prop
  | .i64, v, e => look e (.int v)
  | .i32, v, e => look e (.int v.toInt64)
  | .usize, v, e => look e (.int (Int64.ofNat v.toNat))
  | .f64, v, e => look e (.float v)
  | .bool, v, e => look e (.bool v)
  | .text, v, e => look e (.str v)
  | .unit, _, e => look e .none
  | .object, h, e | .view _, h, e | .callable, h, e => e = h
  | .option _, none, e => look e .none
  | .option t, some v, e => Encodes look t v e
  | .pair a b, (x, y), e =>
    ∃ h k, look e (.tuple [some h, some k]) ∧ Encodes look a x h ∧ Encodes look b y k
  | .triple a b c, (x, y, z), e => ∃ h k l, look e (.tuple [some h, some k, some l]) ∧
      Encodes look a x h ∧ Encodes look b y k ∧ Encodes look c z l
  | .vec t, vs, e => ∃ hs, look e (.list hs) ∧ List.Forall₂ (Encodes look t) vs hs

theorem Encodes.mono (hmono : ∀ e p, look e p → look' e p) :
    (t : NativeType) → (v : t.Value) → (e : Handle) → Encodes look t v e → Encodes look' t v e
  | .i64, _, e, h | .i32, _, e, h | .usize, _, e, h | .f64, _, e, h | .bool, _, e, h
  | .text, _, e, h | .unit, _, e, h | .option _, none, e, h => hmono e _ h
  | .object, _, _, h | .view _, _, _, h | .callable, _, _, h => h
  | .option t, some v, e, h => Encodes.mono hmono t v e h
  | .pair a b, (x, y), e, ⟨h, k, hlook, hx, hy⟩ =>
    ⟨h, k, hmono e _ hlook, Encodes.mono hmono a x h hx, Encodes.mono hmono b y k hy⟩
  | .triple a b c, (x, y, z), e, ⟨h, k, l, hlook, hx, hy, hz⟩ =>
    ⟨h, k, l, hmono e _ hlook, Encodes.mono hmono a x h hx, Encodes.mono hmono b y k hy,
      Encodes.mono hmono c z l hz⟩
  | .vec t, _, e, ⟨hs, hlook, hvs⟩ =>
    ⟨hs, hmono e _ hlook, hvs.imp fun v k hv => Encodes.mono hmono t v k hv⟩

theorem size_pos : (t : NativeType) → (v : t.Value) → 1 ≤ t.size v
  | .i64, _ | .i32, _ | .usize, _ | .f64, _ | .bool, _ | .text, _ | .unit, _ | .object, _
  | .view _, _ | .callable, _ | .option _, none => le_rfl
  | .option t, some v => size_pos t v
  | .pair _ _, (_, _) | .triple _ _ _, (_, _, _) | .vec _, _ => Nat.le_add_right 1 _

end NativeType

def Held (T : Multiset (Handle × HeapEntry)) (e : Handle) (p : Payload) : Prop :=
  ∃ n, (e, ⟨n, p⟩) ∈ T

theorem Held.left (h : Held S e p) : Held (S + T) e p :=
  h.imp fun _ hn => Multiset.mem_add.2 (.inl hn)

theorem Held.right (h : Held T e p) : Held (S + T) e p :=
  h.imp fun _ hn => Multiset.mem_add.2 (.inr hn)

theorem Overlay.payload?_held (ho : Overlay base own units w.heap) (h : Held own e p) :
    w.heap.payload? e = some p := by
  obtain ⟨n, hn⟩ := h
  exact ho.payload?_own hn

/-- What a conversion out leaves: an object that encodes the value, with the units of the value
taken on the base, or an error and nothing else. -/
inductive Encoded (base : Handle → Option HeapEntry) (own : Multiset (Handle × HeapEntry))
    (units : Multiset Handle) (t : NativeType) (v : t.Value) : Option Handle → World U → Prop where
  | made {e : Handle} {w : World U} {T : Multiset (Handle × HeapEntry)} (fits : t.Fits v)
      (clear : w.pending = none) (parts : Parts (Region (t.size v)) [e] T ↑(t.units v))
      (encodes : t.Encodes (Held T) v e)
      (overlay : Overlay base (T + own) (↑(t.units v) + units) w.heap) :
      Encoded base own units t v (some e) w
  | refused {w : World U} (overflow : ¬t.Fits v) (pending : w.pending ≠ none)
      (overlay : Overlay base own units w.heap) : Encoded base own units t v none w

/-- A container whose items own parts of a region is the root of one. -/
theorem container_region {n : Nat} {hs : List Handle} (hparts : Parts (Region n) hs S V)
    (hdrops : p.Drops) (hunits : p.units = hs) (e : Handle) :
    Parts (Region (n + 1)) [e] ({(e, ⟨1, p⟩)} + S) V :=
  .single ⟨p, S, hdrops, hunits ▸ hparts, rfl⟩

theorem some_alloc_run {h : Handle} (hrun : alloc p env w = .done h w') :
    (some <$> alloc p : Act U (Option Handle)) env w = .done (some h) w' := by
  change (alloc p >>= fun h => pure (some h)) env w = _
  rw [bind_run, hrun]
  rfl

theorem alloc_encoded {t : NativeType} {v : t.Value} (hfits : t.Fits v) (hsize : t.size v = 1)
    (hunits : t.units v = []) (hp : p.units = []) (hdrops : p.Drops)
    (hencodes : ∀ look e, look e p → t.Encodes look v e)
    (ho : Overlay base own units w.heap) (clear : w.pending = none) :
    ((some <$> alloc p : Act U (Option Handle)) env w).Settles False
      (Encoded base own units t v) := by
  obtain ⟨e, w', hrun, hpending, ho'⟩ := alloc_overlay ho p env
  rw [some_alloc_run hrun]
  have hparts : Parts (Region (t.size v)) [e] {(e, ⟨1, p⟩)} ↑(t.units v) := by
    rw [hsize, show t.units v = p.units from hunits.trans hp.symm]
    exact .single (Region.of_units hdrops e)
  have hheld : Held {(e, (⟨1, p⟩ : HeapEntry))} e p := ⟨1, by simp⟩
  exact .made hfits (hpending.trans clear) hparts (hencodes _ e hheld) (by simpa [hunits] using ho')

theorem acquire_encoded {t : NativeType} {v : t.Value} (hfits : t.Fits v)
    (hunits : t.units v = [h]) (hencodes : ∀ look, t.Encodes look v h)
    (alive : ∃ e, base h = some e) (ho : Overlay base own units w.heap) (clear : w.pending = none) :
    ((some <$> acquire h : Act U (Option Handle)) env w).Settles False
      (Encoded base own units t v) := by
  obtain ⟨e, he⟩ := alive
  obtain ⟨w', hrun, hpending, ho'⟩ := acquire_overlay ho he env
  have hdone : (some <$> acquire h : Act U (Option Handle)) env w = .done (some h) w' := by
    change (acquire h >>= fun h => pure (some h)) env w = _
    rw [bind_run, hrun]
    rfl
  rw [hdone]
  have hparts : Parts (Region (t.size v)) [h] 0 ↑(t.units v) := by
    rw [hunits]
    exact .of_units [h]
  exact .made hfits (hpending.trans clear) hparts (hencodes _) (by simpa [hunits] using ho')

section

variable {t : NativeType} {n : Nat}

inductive EncodedAll (base : Handle → Option HeapEntry) (own : Multiset (Handle × HeapEntry))
    (units : Multiset Handle) (t : NativeType) (n : Nat) (before : List Handle)
    (S : Multiset (Handle × HeapEntry)) (V : Multiset Handle) (vs : List t.Value) :
    Except Failure (List Handle) → World U → Prop where
  | made {hs : List Handle} {w : World U} {T : Multiset (Handle × HeapEntry)}
      (fits : ∀ v ∈ vs, t.Fits v) (clear : w.pending = none)
      (parts : Parts (Region n) hs T ↑(vs.flatMap t.units))
      (encodes : List.Forall₂ (t.Encodes (Held T)) vs hs)
      (overlay : Overlay base (S + T + own) (V + ↑(vs.flatMap t.units) + units) w.heap) :
      EncodedAll base own units t n before S V vs (.ok (before ++ hs)) w
  | refused {i : Nat} {w : World U} (overflow : ¬∀ v ∈ vs, t.Fits v) (clear : w.pending = none)
      (overlay : Overlay base own units w.heap) :
      EncodedAll base own units t n before S V vs (.error (.of (.elementConversion i))) w

/-- The item that does not convert takes those before it along. -/
theorem convertFrom_refused {i : Nat} {converted : Array Handle} (deep : env.Deep (n + 1))
    (hparts : Parts (Region n) converted.toList S V)
    (ho : Overlay base (S + own) (V + units) w.heap) :
    ((do
      holding [] (releaseAll converted.toList)
      Indicator.clear
      Act.emit (.conversionFailed .element i)
      releaseAll []
      pure (.error (.of (.elementConversion i))) : Act U (Except Failure (List Handle)))
        env w).Settles False fun r w' => r = .error (.of (.elementConversion i)) ∧
          w'.pending = none ∧ Overlay base own units w'.heap := by
  obtain ⟨w₁, hrelease, -, ho₁⟩ := releaseAll_overlay deep hparts ho
  obtain ⟨w₂, hclear, hnone, hheap⟩ := clear_run env w₁
  have hheld : holding [] (releaseAll converted.toList) env w = .done () w₁ := onFault_done hrelease
  rw [bind_run, hheld]
  dsimp only
  rw [bind_run, hclear]
  exact ⟨rfl, hnone, hheap ▸ ho₁⟩

theorem convertFrom_overlay (vs : List t.Value) (deep : env.Deep (n + 1))
    (hitem : ∀ v ∈ vs, t.size v ≤ n ∧ ∀ {own units} {w : World U}, Overlay base own units w.heap →
      w.pending = none → (toPeer t v env w).Settles False (Encoded base own units t v))
    (index : Nat) (converted : Array Handle) (hparts : Parts (Region n) converted.toList S V)
    (ho : Overlay base (S + own) (V + units) w.heap) (clear : w.pending = none) :
    (convertFrom (fun _ => []) (toPeer t) [] vs index converted env w).Settles False
      (EncodedAll base own units t n converted.toList S V vs) := by
  induction vs generalizing index converted S V w with
  | nil =>
    have hrun : convertFrom (fun _ => []) (toPeer t) [] [] index converted env w =
        .done (.ok (converted.toList ++ [])) w := by
      simp [convertFrom, bind_run, holding, onFault, releaseAll, pure_run]
    rw [hrun]
    exact .made (T := 0) (by simp) clear (by simpa using Parts.nil) .nil (by simpa using ho)
  | cons v vs ih =>
    obtain ⟨hsize, hv⟩ := hitem v List.mem_cons_self
    rw [convertFrom]
    refine (onFault_settles _ (hv ho clear)).bind fun out w₁ _ h₁ => ?_
    cases h₁ with
    | @made e _ T fits clear₁ parts encodes overlay =>
      rw [bind_run]
      simp only [Indicator.isSet, clear₁, Option.isSome_none]
      have hrelease : (releaseAll []).onFault (abandon (fun _ => []) vs [] (converted.push e)) env
          w₁ = .done () w₁ := rfl
      rw [bind_run, hrelease]
      have hpush : Parts (Region n) (converted.push e).toList (S + T) (V + ↑(t.units v)) := by
        rw [Array.toList_push]
        exact hparts.append (parts.mono fun _ _ _ hr => hr.of_le hsize)
      refine (ih (fun v' hv' => hitem v' (List.mem_cons_of_mem v hv')) (index + 1)
        (converted.push e) hpush (overlay.congr (by abel) (by abel)) clear₁).mono
          fun r w₂ _ h₂ => ?_
      cases h₂ with
      | @made hs _ T' fits' clear₂ parts' encodes' overlay' =>
        rw [Array.toList_push, List.append_assoc]
        refine .made (List.forall_mem_cons.2 ⟨fits, fits'⟩) clear₂ (T := T + T') ?_ ?_ ?_
        · rw [List.flatMap_cons, ← Multiset.coe_add]
          exact (parts.mono fun _ _ _ hr => hr.of_le hsize).append parts'
        · exact .cons (encodes.mono (fun _ _ => Held.left) t v e)
            (encodes'.imp fun v k hv => hv.mono (fun _ _ => Held.right) t v k)
        · refine overlay'.congr (by abel) ?_
          rw [List.flatMap_cons, ← Multiset.coe_add]
          abel
      | refused overflow clear₂ overlay' =>
        exact .refused (fun hfits => overflow (List.forall_mem_cons.1 hfits).2) clear₂ overlay'
    | refused overflow pending overlay =>
      rw [bind_run]
      simp only [Indicator.isSet]
      have hrefused := convertFrom_refused (i := index) deep hparts overlay
      have hleft : (Option.none : Option Handle).toList ++
          (v :: vs).flatMap (fun _ => ([] : List Handle)) ++ [] = [] := by simp
      rw [hleft]
      refine hrefused.mono fun r w₂ _ h₂ => ?_
      obtain ⟨rfl, clear₂, ho₂⟩ := h₂
      exact .refused (fun hfits => overflow (List.forall_mem_cons.1 hfits).1) clear₂ ho₂

end

theorem reflect_element (i : Nat) (env : Env U) (w : World U) :
    ∃ w', Failure.reflect (.of (.elementConversion i)) env w = .done () w' ∧ w'.pending ≠ none ∧
      w'.heap = w.heap := by
  obtain ⟨w₁, hclear, hnone, hheap⟩ := clear_run env w
  obtain ⟨w₂, hraise, hpending, hheap₂⟩ := raise_run .typeError
    (Failure.of (.elementConversion i)).message env hnone
  refine ⟨w₂, ?_, by simp [hpending], hheap₂.trans hheap⟩
  change (Indicator.clear >>= fun _ => raise .typeError _) env w = _
  rw [bind_run, hclear]
  exact hraise

theorem vec_encoded {t : NativeType} (vs : List t.Value)
    (room : vs.length * max Handle.width t.width < 2 ^ 63)
    (deep : env.Deep (NativeType.size (.vec t) vs + 1))
    (hitem : ∀ v ∈ vs, ∀ {own units} {w : World U}, Overlay base own units w.heap →
      w.pending = none → (toPeer t v env w).Settles False (Encoded base own units t v))
    (ho : Overlay base own units w.heap) (clear : w.pending = none) :
    (toPeer (.vec t) vs env w).Settles False (Encoded base own units (.vec t) vs) := by
  have hsize (v : t.Value) (hv : v ∈ vs) : t.size v ≤ (vs.map t.size).sum :=
    List.single_le_sum (fun _ _ => Nat.zero_le _) _ (List.mem_map_of_mem hv)
  have hreserve : ((Act.reserve vs.length Handle.width).onFault
      (releaseAll (List.flatMap (fun _ => []) vs))) env w = .done () w :=
    onFault_done (reserve_done (lt_of_le_of_lt (Nat.mul_le_mul_left _ (le_max_left _ _)) room) env w)
  have hall : (convertAll (fun _ => []) (toPeer t) (.listed vs true) env w).Settles False
      (EncodedAll base own units t (vs.map t.size).sum [] 0 0 vs) := by
    unfold convertAll
    rw [bind_run]
    simp only [Indicator.isSet, clear, Option.isSome_none, Bool.false_eq_true, if_false]
    rw [bind_run, holding, Source.stored, Source.hint, hreserve]
    exact convertFrom_overlay vs (deep.of_le (by simp [NativeType.size]))
      (fun v hv => ⟨hsize v hv, hitem v hv⟩) 0 #[] .nil (by simpa using ho) clear
  refine hall.bind fun r w₁ _ h₁ => ?_
  cases h₁ with
  | @made hs _ T fits clear₁ parts encodes overlay =>
    obtain ⟨e, w₂, hrun, hpending, ho₂⟩ := alloc_overlay overlay (.list hs) env
    have hdone := some_alloc_run hrun
    rw [List.nil_append]
    dsimp only
    rw [hdone]
    have hparts := container_region parts (p := .list hs) (by simp [Payload.Drops]) rfl e
    rw [Nat.add_comm] at hparts
    refine .made fits (hpending.trans clear₁) hparts ⟨hs, ⟨1, by simp⟩, ?_⟩ ?_
    · exact encodes.imp fun v k hv => hv.mono (fun _ _ => Held.right) t v k
    · exact ho₂.congr (by abel) (by rw [zero_add]; rfl)
  | @refused i _ overflow clear₁ overlay =>
    obtain ⟨w₂, hreflect, hpending, hheap⟩ := reflect_element i env w₁
    dsimp only
    rw [bind_run, hreflect]
    exact .refused overflow hpending (hheap ▸ overlay)

theorem pair_encoded {a b : NativeType} (x : a.Value) (y : b.Value)
    (deep : env.Deep (NativeType.size (.pair a b) (x, y) + 1))
    (hx : ∀ {own units} {w : World U}, Overlay base own units w.heap → w.pending = none →
      (toPeer a x env w).Settles False (Encoded base own units a x))
    (hy : ∀ {own units} {w : World U}, Overlay base own units w.heap → w.pending = none →
      (toPeer b y env w).Settles False (Encoded base own units b y))
    (ho : Overlay base own units w.heap) (clear : w.pending = none) :
    (toPeer (.pair a b) (x, y) env w).Settles False
      (Encoded base own units (.pair a b) (x, y)) := by
  have hsize : NativeType.size (.pair a b) (x, y) = a.size x + b.size y + 1 := Nat.add_comm _ _
  rw [hsize] at deep
  rw [toPeer]
  refine (hx ho clear).bind fun r w₁ _ h₁ => ?_
  cases h₁ with
  | refused overflow pending overlay =>
    exact .refused (fun hfits => overflow hfits.1) pending overlay
  | @made h _ S fits clear₁ parts encodes overlay =>
    refine (holding_settles [h] (hy overlay clear₁)).bind fun r w₂ _ h₂ => ?_
    obtain ⟨-, h₂⟩ := h₂
    cases h₂ with
    | refused overflow pending overlay₂ =>
      obtain ⟨w₃, hrelease, hpending, ho₃⟩ := release_overlay (deep.of_le (by omega)) parts overlay₂
      dsimp only
      rw [bind_run, hrelease]
      exact .refused (fun hfits => overflow hfits.2) (hpending ▸ pending) ho₃
    | @made k _ T fits₂ clear₂ parts₂ encodes₂ overlay₂ =>
      obtain ⟨e, w₃, hrun, hpending, ho₃⟩ := alloc_overlay overlay₂ (.tuple [some h, some k]) env
      have hdone := some_alloc_run hrun
      dsimp only
      rw [show newTuple [h, k] = alloc (.tuple [some h, some k]) from rfl, hdone]
      have hitems : Parts (Region (a.size x + b.size y)) [h, k] (S + T)
          (↑(a.units x) + ↑(b.units y)) :=
        (parts.mono fun _ _ _ hr => hr.of_le (by omega)).append
          (parts₂.mono fun _ _ _ hr => hr.of_le (by omega))
      have hparts := container_region hitems (p := .tuple [some h, some k])
        (by simp [Payload.Drops]) rfl e
      have hunits : (↑(NativeType.units (.pair a b) (x, y)) : Multiset Handle) =
          ↑(a.units x) + ↑(b.units y) := (Multiset.coe_add _ _).symm
      rw [← hsize, ← hunits] at hparts
      refine .made ⟨fits, fits₂⟩ (hpending.trans clear₂) hparts ⟨h, k, ⟨1, by simp⟩, ?_, ?_⟩ ?_
      · exact encodes.mono (fun _ _ hheld => hheld.left.right) a x h
      · exact encodes₂.mono (fun _ _ hheld => hheld.right.right) b y k
      · rw [hunits]
        exact ho₃.congr (by abel) (by abel)

theorem triple_encoded {a b c : NativeType} (x : a.Value) (y : b.Value) (z : c.Value)
    (deep : env.Deep (NativeType.size (.triple a b c) (x, y, z) + 1))
    (hx : ∀ {own units} {w : World U}, Overlay base own units w.heap → w.pending = none →
      (toPeer a x env w).Settles False (Encoded base own units a x))
    (hy : ∀ {own units} {w : World U}, Overlay base own units w.heap → w.pending = none →
      (toPeer b y env w).Settles False (Encoded base own units b y))
    (hz : ∀ {own units} {w : World U}, Overlay base own units w.heap → w.pending = none →
      (toPeer c z env w).Settles False (Encoded base own units c z))
    (ho : Overlay base own units w.heap) (clear : w.pending = none) :
    (toPeer (.triple a b c) (x, y, z) env w).Settles False
      (Encoded base own units (.triple a b c) (x, y, z)) := by
  have hsize : NativeType.size (.triple a b c) (x, y, z) = a.size x + (b.size y + c.size z) + 1 :=
    Nat.add_comm _ _
  rw [hsize] at deep
  rw [toPeer]
  refine (hx ho clear).bind fun r w₁ _ h₁ => ?_
  cases h₁ with
  | refused overflow pending overlay =>
    exact .refused (fun hfits => overflow hfits.1) pending overlay
  | @made h _ S fits clear₁ parts encodes overlay =>
    refine (holding_settles [h] (hy overlay clear₁)).bind fun r w₂ _ h₂ => ?_
    obtain ⟨-, h₂⟩ := h₂
    cases h₂ with
    | refused overflow pending overlay₂ =>
      obtain ⟨w₃, hrelease, hpending, ho₃⟩ := release_overlay (deep.of_le (by omega)) parts overlay₂
      dsimp only
      rw [bind_run, hrelease]
      exact .refused (fun hfits => overflow hfits.2.1) (hpending ▸ pending) ho₃
    | @made k _ T fits₂ clear₂ parts₂ encodes₂ overlay₂ =>
      have hfirst := parts.mono fun _ _ _ hr => hr.of_le
        (show a.size x ≤ a.size x + (b.size y + c.size z) by omega)
      have hsecond := parts₂.mono fun _ _ _ hr => hr.of_le
        (show b.size y ≤ a.size x + (b.size y + c.size z) by omega)
      refine (holding_settles [k, h] (hz overlay₂ clear₂)).bind fun r w₃ _ h₃ => ?_
      obtain ⟨-, h₃⟩ := h₃
      cases h₃ with
      | refused overflow pending overlay₃ =>
        obtain ⟨w₄, hrelease, hpending, ho₄⟩ := releaseAll_overlay (deep.of_le (by omega))
          (hsecond.append hfirst) (overlay₃.congr (add_assoc _ _ _).symm (add_assoc _ _ _).symm)
        dsimp only
        rw [bind_run, show releaseAll [k, h] env w₃ = _ from hrelease]
        exact .refused (fun hfits => overflow hfits.2.2) (hpending ▸ pending) ho₄
      | @made l _ R fits₃ clear₃ parts₃ encodes₃ overlay₃ =>
        obtain ⟨e, w₄, hrun, hpending, ho₄⟩ :=
          alloc_overlay overlay₃ (.tuple [some h, some k, some l]) env
        have hdone := some_alloc_run hrun
        dsimp only
        rw [show newTuple [h, k, l] = alloc (.tuple [some h, some k, some l]) from rfl, hdone]
        have hitems : Parts (Region (a.size x + (b.size y + c.size z))) [h, k, l] (S + (T + R))
            (↑(a.units x) + (↑(b.units y) + ↑(c.units z))) :=
          hfirst.append (hsecond.append (parts₃.mono fun _ _ _ hr => hr.of_le (by omega)))
        have hparts := container_region hitems (p := .tuple [some h, some k, some l])
          (by simp [Payload.Drops]) rfl e
        have hunits : (↑(NativeType.units (.triple a b c) (x, y, z)) : Multiset Handle) =
            ↑(a.units x) + (↑(b.units y) + ↑(c.units z)) := by
          simp only [NativeType.units, ← Multiset.coe_add, add_assoc]
        rw [← hsize, ← hunits] at hparts
        refine .made ⟨fits, fits₂, fits₃⟩ (hpending.trans clear₃) hparts
          ⟨h, k, l, ⟨1, by simp⟩, ?_, ?_, ?_⟩ ?_
        · exact encodes.mono (fun _ _ hheld => hheld.left.right) a x h
        · exact encodes₂.mono (fun _ _ hheld => hheld.left.right.right) b y k
        · exact encodes₃.mono (fun _ _ hheld => hheld.right.right.right) c z l
        · rw [hunits]
          exact ho₄.congr (by abel) (by abel)

/-- A conversion out makes the objects of the value or, if an integer does not fit, nothing. -/
theorem toPeer_overlay : (t : NativeType) → (v : t.Value) → t.Roomy v →
    env.Deep (t.size v + 1) → (∀ h ∈ t.units v, ∃ e, base h = some e) → ∀ {own units} {w : World U},
    Overlay base own units w.heap → w.pending = none →
    (toPeer t v env w).Settles False (Encoded base own units t v)
  | .i64, v, _, _, _, _, _, _, ho, clear | .i32, v, _, _, _, _, _, _, ho, clear
  | .f64, v, _, _, _, _, _, _, ho, clear | .bool, v, _, _, _, _, _, _, ho, clear
  | .text, v, _, _, _, _, _, _, ho, clear | .unit, v, _, _, _, _, _, _, ho, clear
  | .option _, none, _, _, _, _, _, _, ho, clear => by
    rw [toPeer]
    exact alloc_encoded trivial rfl rfl rfl (by simp [Payload.Drops]) (fun _ _ h => h) ho clear
  | .usize, v, _, _, _, own, units, w, ho, clear => by
    rw [toPeer]
    by_cases hv : v.toNat < Nat.pow 2 63
    · rw [if_pos hv]
      exact alloc_encoded hv rfl rfl rfl (by simp [Payload.Drops]) (fun _ _ h => h) ho clear
    · rw [if_neg hv]
      obtain ⟨w', hraise, hpending, hheap⟩ :=
        raise_run .overflowError "usize value does not fit a peer int" env clear
      rw [bind_run, hraise]
      exact .refused hv (by simp [hpending]) (hheap ▸ ho)
  | .object, h, _, _, alive, _, _, _, ho, clear | .view _, h, _, _, alive, _, _, _, ho, clear
  | .callable, h, _, _, alive, _, _, _, ho, clear => by
    rw [toPeer]
    exact acquire_encoded trivial rfl (fun _ => rfl) (alive h (List.mem_singleton_self h)) ho clear
  | .option t, some v, room, deep, alive, _, _, _, ho, clear => by
    refine (toPeer_overlay t v room deep alive ho clear).mono fun o w' _ h => ?_
    cases h with
    | made fits clear parts encodes overlay => exact .made fits clear parts encodes overlay
    | refused overflow pending overlay => exact .refused overflow pending overlay
  | .pair a b, (x, y), room, deep, alive, _, _, _, ho, clear =>
    pair_encoded x y deep
      (toPeer_overlay a x room.1 (deep.of_le (by simp only [NativeType.size]; omega))
        fun h hh => alive h (List.mem_append_left _ hh))
      (toPeer_overlay b y room.2 (deep.of_le (by simp only [NativeType.size]; omega))
        fun h hh => alive h (List.mem_append_right _ hh)) ho clear
  | .triple a b c, (x, y, z), room, deep, alive, _, _, _, ho, clear =>
    triple_encoded x y z deep
      (toPeer_overlay a x room.1 (deep.of_le (by simp only [NativeType.size]; omega))
        fun h hh => alive h (List.mem_append_left _ (List.mem_append_left _ hh)))
      (toPeer_overlay b y room.2.1 (deep.of_le (by simp only [NativeType.size]; omega))
        fun h hh => alive h (List.mem_append_left _ (List.mem_append_right _ hh)))
      (toPeer_overlay c z room.2.2 (deep.of_le (by simp only [NativeType.size]; omega))
        fun h hh => alive h (List.mem_append_right _ hh)) ho clear
  | .vec t, vs, room, deep, alive, _, _, _, ho, clear =>
    vec_encoded vs room.1 deep
      (fun v hv => toPeer_overlay t v (room.2 v hv)
        (deep.of_le (Nat.succ_le_succ ((List.single_le_sum (fun _ _ => Nat.zero_le _) _
          (List.mem_map_of_mem hv)).trans (Nat.le_add_left _ 1))))
        fun h hh => alive h (List.mem_flatMap.2 ⟨v, hv, hh⟩)) ho clear

end Causeway
