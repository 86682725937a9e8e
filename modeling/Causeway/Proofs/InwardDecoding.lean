import Causeway.Proofs.DecodingPasses
/-!
# Inward conversion decodes

Converting an object that shows a value tree gives what the tree decodes to, or raises the error
that the decoding ends in. Nothing is left behind but the units that the value owns.
-/
set_option autoImplicit false

namespace Causeway

open Act

variable {U : Type} {env : Env U} {base : Handle → Option HeapEntry}
  {own : Multiset (Handle × HeapEntry)} {stakes : Multiset Stake} {w : World U}
  {h : Handle} {τ : ValueTree} {ts : List ValueTree} {x : Stake} {ks : List Handle}
  {t a b c : NativeType} {n : Nat}

namespace ValueTree

theorem isNone_payload (τ : ValueTree) (ks : List Handle) : (τ.payload ks).isNone = τ.isNull := by
  cases τ <;> rfl

theorem asInt?_payload (τ : ValueTree) (ks : List Handle) : (τ.payload ks).asInt? = τ.asInt? := by
  cases τ <;> rfl

theorem asFloat?_payload (τ : ValueTree) (ks : List Handle) :
    (τ.payload ks).asFloat? = τ.asFloat? := by
  cases τ <;> rfl

theorem asText?_payload (τ : ValueTree) (ks : List Handle) :
    (τ.payload ks).asText? = τ.asText? := by
  cases τ <;> rfl

theorem typeName_payload (τ : ValueTree) (ks : List Handle) :
    (τ.payload ks).typeName = τ.typeName := by
  cases τ <;> rfl

theorem isTruthy_payload (hlength : ks.length = τ.items.length) :
    (τ.payload ks).isTruthy = τ.isTruthy := by
  have hempty (us : List ValueTree) (hus : ks.length = us.length) : ks.isEmpty = us.isEmpty := by
    cases ks <;> cases us <;> first | rfl | cases hus
  cases τ with
  | list us | set us => exact congrArg (!·) (hempty us hlength)
  | tuple us =>
    change (!(ks.map some).isEmpty) = !us.isEmpty
    rw [List.isEmpty_map, hempty us hlength]
  | _ => rfl

theorem length_le_breadth (hts : τ.elements? = some ts) : ts.length ≤ τ.breadth := by
  cases τ with
  | str s =>
    cases hts
    rw [List.length_map, String.length_toList]
    exact le_rfl
  | list us | tuple us | set us =>
    cases hts
    exact le_max_left _ _
  | _ => cases hts

theorem breadth_le_of_mem_elements {u : ValueTree} (hts : τ.elements? = some ts) (hu : u ∈ ts) :
    u.breadth ≤ τ.breadth := by
  have hitem (hitems : τ.items = ts) : u.breadth ≤ τ.breadth := breadth_le_of_mem (hitems ▸ hu)
  cases τ with
  | str s =>
    have hlength := length_le_breadth hts
    cases hts
    obtain ⟨c, hc, rfl⟩ := List.mem_map.1 hu
    have hpos := List.length_pos_of_mem hu
    have hone : (str (String.singleton c)).breadth = 1 := by simp [breadth]
    omega
  | list us | tuple us | set us =>
    cases hts
    exact hitem rfl
  | _ => cases hts

end ValueTree

/-- An object that shows a tree holds the tree's payload, over objects of the base. -/
theorem Stake.Shows.exists_payload (hx : x.Shows base τ) : ∃ ks, x.Holds base (τ.payload ks) ∧
    List.Forall₂ (fun k u => (Stake.known k).Shows base u) ks τ.items := by
  cases x with
  | known h =>
    obtain ⟨found, items⟩ := hx
    obtain ⟨⟨n, p⟩, he, hp⟩ := Option.map_eq_some_iff.1 found
    exact ⟨_, ⟨n, he.trans (by rw [← hp])⟩, items⟩
  | text h s =>
    cases hx
    exact ⟨[], rfl, .nil⟩

/-- What can be passed over is a sequence whose elements show the elements of the tree. -/
theorem Stake.Shows.exists_sequence (hx : x.Shows base τ) (hts : τ.elements? = some ts) :
    ∃ body items, Sequence base x body items ts := by
  obtain ⟨ks, holds, hitems⟩ := hx.exists_payload
  have hheld (hitems' : List.Forall₂ (fun k u => (Stake.known k).Shows base u) ks ts) :
      List.Forall₂ (Item.Shows base) (ks.map .held) ts := List.forall₂_map_left_iff.2 hitems'
  cases τ with
  | str s =>
    cases hts
    refine ⟨_, _, holds, .str s, ?_⟩
    rw [List.forall₂_map_left_iff, List.forall₂_map_right_iff]
    exact List.forall₂_same.2 fun c _ => rfl
  | list us =>
    cases hts
    exact ⟨_, _, holds, .list ks, hheld hitems⟩
  | tuple us =>
    cases hts
    exact ⟨_, _, holds, .tuple ks, hheld hitems⟩
  | set us =>
    cases hts
    exact ⟨_, _, holds, .set ks, hheld hitems⟩
  | _ => cases hts

/-- A vector anywhere in a value of the type lies in one piece if it has `n` elements at most. -/
def NativeType.RoomFor (n : Nat) : NativeType → Prop
  | .option t => t.RoomFor n
  | .pair a b => a.RoomFor n ∧ b.RoomFor n
  | .triple a b c => a.RoomFor n ∧ b.RoomFor n ∧ c.RoomFor n
  | .vec t => n * t.width < 2 ^ 63 ∧ t.RoomFor n
  | _ => True

/-- Objects that show trees of breadth `n` at most are converted to what the trees decode to. -/
def Reads (env : Env U) (base : Handle → Option HeapEntry) (n : Nat) (t : NativeType) : Prop :=
  ∀ {τ : ValueTree} {x : Stake} {own stakes} {w : World U}, x.Shows base τ →
    τ.breadth ≤ n → x.Stands base stakes → Staked base own stakes w.heap → w.pending = none →
    (fromPeer t x.handle env w).Settles False (Decodes base own stakes t (t.decode τ))

theorem decodes_pure {act : Act U (Option t.Value)} {v : t.Value} {d : t.Decoded}
    (hrun : act env w = .done (some v) w) (hunits : t.units v = [])
    (himages : t.Images (Among base []) v d) (hs : Staked base own stakes w.heap)
    (clear : w.pending = none) :
    (act env w).Settles False (Decodes base own stakes t (.ok d)) := by
  rw [hrun]
  exact ⟨clear, v, [], rfl, .plain hunits himages, by simpa using hs⟩

theorem raise_none_run {α : Type} (kind : ExceptionKind) (message : String) (env : Env U)
    (clear : w.pending = none) :
    ∃ w', (do raise kind message; pure none : Act U (Option α)) env w = .done none w' ∧
      w'.pending = some ⟨kind, message⟩ ∧ w'.heap = w.heap := by
  obtain ⟨w', hraise, hpending, hheap⟩ := raise_run kind message env clear
  exact ⟨w', by rw [bind_run, hraise]; rfl, hpending, hheap⟩

theorem decodes_raise {act : Act U (Option t.Value)} {kind : ExceptionKind} {message : String}
    (hrun : act env w = (do raise kind message; pure none : Act U (Option t.Value)) env w)
    (hs : Staked base own stakes w.heap) (clear : w.pending = none) :
    (act env w).Settles False (Decodes base own stakes t (.error ⟨kind, message⟩)) := by
  obtain ⟨w', hraise, hpending, hheap⟩ := raise_none_run (α := t.Value) kind message env clear
  rw [hrun, hraise]
  exact ⟨hpending, rfl, hheap ▸ hs⟩

theorem typeNameOf_run (hp : w.heap.payload? h = some (τ.payload ks)) (env : Env U) :
    typeNameOf h env w = .done τ.typeName w := by
  simp [typeNameOf, Act.heap, Heap.typeName, hp, ValueTree.typeName_payload]

theorem intFromPeer_reads (hp : w.heap.payload? h = some (τ.payload ks)) (env : Env U) :
    intFromPeer h env w = match τ.toInt with
      | .ok i => .done (some i) w
      | .error e => (do raise e.kind e.message; pure none : Act U (Option Int64)) env w := by
  have hint : asInt h env w = .done τ.asInt? w := by
    simp [asInt, askPayload, bind_run, Act.heap, hp, pure_run, ValueTree.asInt?_payload]
  rw [intFromPeer, bind_run, hint]
  cases hread : τ.asInt? with
  | some i => simp [ValueTree.toInt, hread, pure_run]
  | none => simp [ValueTree.toInt, hread, bind_run, typeNameOf_run hp, raiseType]

theorem reads_i64 : Reads env base n .i64 := by
  intro τ x own stakes w hx _ hstands hs clear
  obtain ⟨ks, holds, -⟩ := hx.exists_payload
  have hrun := intFromPeer_reads (hs.payload? hstands holds) env
  rw [NativeType.decode]
  cases hread : τ.toInt with
  | ok i =>
    rw [hread] at hrun
    exact decodes_pure (t := .i64) (v := i) hrun rfl rfl hs clear
  | error e =>
    rw [hread] at hrun
    exact decodes_raise (t := .i64) hrun hs clear

theorem reads_ranged {inRange : Int64 → Prop} [DecidablePred inRange] {value : Int64 → t.Value}
    {decoded : Int64 → t.Decoded} {message : String}
    (hconvert : ∀ h, fromPeer (U := U) t h = do
      match ← intFromPeer h with
      | none => pure none
      | some v =>
        if inRange v then pure (some (value v))
        else
          raise .overflowError message
          pure none)
    (hdecode : ∀ τ, t.decode τ = do
      let v ← τ.toInt
      if inRange v then .ok (decoded v) else .error ⟨.overflowError, message⟩)
    (hunits : ∀ v, t.units (value v) = [])
    (himages : ∀ v, t.Images (Among base []) (value v) (decoded v)) : Reads env base n t := by
  intro τ x own stakes w hx _ hstands hs clear
  obtain ⟨ks, holds, -⟩ := hx.exists_payload
  have hrun := intFromPeer_reads (hs.payload? hstands holds) env
  rw [hconvert, hdecode]
  cases hread : τ.toInt with
  | ok i =>
    rw [hread] at hrun
    change (_ : Outcome U (Option t.Value)).Settles False (Decodes base own stakes t
      (if inRange i then .ok (decoded i) else .error ⟨.overflowError, message⟩))
    by_cases hrange : inRange i
    · rw [if_pos hrange]
      refine decodes_pure ?_ (hunits i) (himages i) hs clear
      rw [bind_run, hrun]
      dsimp only
      rw [if_pos hrange]
      rfl
    · rw [if_neg hrange]
      refine decodes_raise ?_ hs clear
      rw [bind_run, hrun]
      dsimp only
      rw [if_neg hrange]
  | error e =>
    obtain ⟨w', hraise, hpending, hheap⟩ := raise_none_run (α := Int64) e.kind e.message env clear
    rw [bind_run, hrun, hread]
    dsimp only
    rw [hraise]
    exact ⟨hpending, rfl, hheap ▸ hs⟩

theorem reads_i32 : Reads env base n .i32 :=
  reads_ranged (t := .i32) (fun _ => rfl) (fun _ => rfl) (fun _ => rfl) fun _ => rfl

theorem reads_usize : Reads env base n .usize :=
  reads_ranged (t := .usize) (fun _ => rfl) (fun _ => rfl) (fun _ => rfl) fun _ => rfl

theorem reads_f64 : Reads env base n .f64 := by
  intro τ x own stakes w hx _ hstands hs clear
  obtain ⟨ks, holds, -⟩ := hx.exists_payload
  have hp := hs.payload? hstands holds
  have hfloat : asFloat x.handle env w = .done τ.asFloat? w := by
    simp [asFloat, askPayload, bind_run, Act.heap, hp, pure_run, ValueTree.asFloat?_payload]
  rw [NativeType.decode, fromPeer, bind_run, hfloat]
  cases τ.asFloat? with
  | some r => exact ⟨clear, r, [], rfl, .plain rfl rfl, by simpa using hs⟩
  | none =>
    dsimp only
    rw [bind_run, typeNameOf_run hp]
    exact decodes_raise (t := .f64) rfl hs clear

theorem reads_text : Reads env base n .text := by
  intro τ x own stakes w hx _ hstands hs clear
  obtain ⟨ks, holds, -⟩ := hx.exists_payload
  have hp := hs.payload? hstands holds
  have htext : asText x.handle env w = .done τ.asText? w := by
    simp [asText, askPayload, bind_run, Act.heap, hp, pure_run, ValueTree.asText?_payload]
  rw [NativeType.decode, fromPeer, bind_run, htext]
  cases τ.asText? with
  | some s => exact ⟨clear, s, [], rfl, .plain rfl rfl, by simpa using hs⟩
  | none =>
    dsimp only
    rw [bind_run, typeNameOf_run hp]
    exact decodes_raise (t := .text) rfl hs clear

theorem reads_bool : Reads env base n .bool := by
  intro τ x own stakes w hx _ hstands hs clear
  obtain ⟨ks, holds, items⟩ := hx.exists_payload
  have hp := hs.payload? hstands holds
  have htruthy : isTruthy x.handle env w = .done τ.isTruthy w := by
    simp [isTruthy, askPayload, bind_run, Act.heap, hp, pure_run,
      ValueTree.isTruthy_payload items.length_eq]
  rw [NativeType.decode, fromPeer]
  change ((isTruthy x.handle >>= fun b => pure (some b)) env w).Settles _ _
  rw [bind_run, htruthy]
  exact ⟨clear, _, [], rfl, .plain rfl rfl, by simpa using hs⟩

theorem reads_unit : Reads env base n .unit := by
  intro τ x own stakes w _ _ _ hs clear
  exact decodes_pure (t := .unit) (v := ()) rfl rfl trivial hs clear

theorem reads_object : Reads env base n .object := by
  intro τ x own stakes w hx _ hstands hs clear
  obtain ⟨w', hacquire, hpending, hs'⟩ := acquire_staked hs hstands env
  rw [NativeType.decode, fromPeer]
  change ((acquire x.handle >>= fun h => pure (some h)) env w).Settles _ _
  rw [bind_run, hacquire]
  exact ⟨hpending.trans clear, x.handle, [x], rfl, ⟨rfl, x, List.mem_cons_self, rfl, hx⟩, hs'⟩

theorem Reads.option (ht : Reads env base n t) : Reads env base n (.option t) := by
  intro τ x own stakes w hx hbreadth hstands hs clear
  obtain ⟨ks, holds, -⟩ := hx.exists_payload
  have hp := hs.payload? hstands holds
  have hnull : isNoneObject x.handle env w = .done τ.isNull w := by
    simp [isNoneObject, askPayload, bind_run, Act.heap, hp, pure_run, ValueTree.isNone_payload]
  rw [NativeType.decode, fromPeer, bind_run, hnull]
  cases τ.isNull with
  | true => exact ⟨clear, none, [], rfl, .plain rfl trivial, by simpa using hs⟩
  | false =>
    refine (ht hx hbreadth hstands hs clear).bind fun o w₁ _ h₁ => ?_
    cases hdecoded : t.decode τ with
    | ok d =>
      rw [hdecoded] at h₁
      obtain ⟨clear₁, v, L, rfl, hbacks, hs₁⟩ := h₁
      exact ⟨clear₁, some v, L, rfl, ⟨hbacks.units, hbacks.images⟩, hs₁⟩
    | error e =>
      rw [hdecoded] at h₁
      obtain ⟨hpending, rfl, hs₁⟩ := h₁
      exact ⟨hpending, rfl, hs₁⟩

theorem tupleItems_staked {us : List ValueTree} (hx : x.Shows base (.tuple us))
    (hstands : x.Stands base stakes) (hs : Staked base own stakes w.heap) (env : Env U) :
    ∃ xs w', tupleItems x.handle env w = .done (some (xs.map Stake.handle)) w' ∧
      w'.pending = w.pending ∧ List.Forall₂ (Stake.Shows base) xs us ∧
      Staked base own (↑xs + stakes) w'.heap := by
  obtain ⟨ks, holds, items⟩ := hx.exists_payload
  have hp := hs.payload? hstands holds
  have hshows : List.Forall₂ (Stake.Shows base) (ks.map .known) us :=
    List.forall₂_map_left_iff.2 items
  have hstand : ∀ y ∈ ks.map Stake.known, y.Stands base stakes := by
    intro y hy
    obtain ⟨k, hk, rfl⟩ := List.mem_map.1 hy
    obtain ⟨i, hi, rfl⟩ := List.mem_iff_getElem.1 hk
    exact (List.Forall₂.get items hi (items.length_eq ▸ hi)).exists_entry
  have hhandles : (ks.map Stake.known).map Stake.handle = ks := by
    rw [List.map_map]
    exact List.map_id ks
  obtain ⟨w₁, hacquire, hpending₁, hs₁⟩ := acquireAll_staked _ hs hstand env
  refine ⟨ks.map .known, w₁, ?_, hpending₁, hshows, hs₁⟩
  rw [hhandles] at hacquire ⊢
  simp only [tupleItems, bind_run, Act.heap, hp, ValueTree.payload, List.filterMap_map]
  change (acquireAll (ks.filterMap some) >>= fun hs => pure (some hs)) env w = _
  rw [List.filterMap_some, bind_run, hacquire]
  rfl

theorem tupleItems_other (hp : w.heap.payload? h = some (τ.payload ks))
    (hother : ∀ us, τ ≠ .tuple us) (env : Env U) : tupleItems h env w = .done none w := by
  simp only [tupleItems, bind_run, Act.heap, hp]
  cases τ with
  | tuple us => exact absurd rfl (hother us)
  | _ => rfl

/-- One part of a tuple: if it cannot be read, what is held is given back. -/
theorem part_settles {α : Type} {act : Act U (Option t.Value)} {decoded : Except Raised t.Decoded}
    {k : t.Value → Act U (Option α)} {Q : Option α → World U → Prop} (held : List Stake)
    (deep : env.Deep 1)
    (hact : (act env w).Settles False (Decodes base own (↑held + stakes) t decoded))
    (hsome : ∀ d v L w', decoded = .ok d → w'.pending = none → Backs base t v d L →
      Staked base own (↑L + (↑held + stakes)) w'.heap → (k v env w').Settles False Q)
    (hnone : ∀ e w', decoded = .error e → w'.pending = some e → Staked base own stakes w'.heap →
      Q none w') :
    ((do
      match ← holding (held.map Stake.handle) act with
      | none =>
        releaseAll (held.map Stake.handle)
        pure none
      | some v => k v : Act U (Option α)) env w).Settles False Q := by
  refine (holding_settles _ hact).bind fun o w₁ _ h₁ => ?_
  obtain ⟨-, h₁⟩ := h₁
  cases decoded with
  | ok d =>
    obtain ⟨clear₁, v, L, rfl, hbacks, hs₁⟩ := h₁
    exact hsome d v L w₁ rfl clear₁ hbacks hs₁
  | error e =>
    obtain ⟨hpending₁, rfl, hs₁⟩ := h₁
    obtain ⟨w₂, hrelease, hpending₂, hs₂⟩ := releaseAll_staked held deep hs₁
    dsimp only
    rw [bind_run, hrelease]
    exact hnone e w₂ rfl (hpending₂.trans hpending₁) hs₂

theorem expectTuple_found {us : List ValueTree} (hx : x.Shows base (.tuple us))
    (hstands : x.Stands base stakes) (hs : Staked base own stakes w.heap)
    (clear : w.pending = none) (env : Env U) :
    ∃ xs w', expectTuple x.handle us.length env w = .done (some (xs.map Stake.handle)) w' ∧
      w'.pending = none ∧ List.Forall₂ (Stake.Shows base) xs us ∧
      Staked base own (↑xs + stakes) w'.heap := by
  obtain ⟨xs, w', hitems, hpending, hshows, hs'⟩ := tupleItems_staked hx hstands hs env
  refine ⟨xs, w', ?_, hpending.trans clear, hshows, hs'⟩
  rw [expectTuple, bind_run, hitems]
  dsimp only
  rw [if_pos (by rw [List.length_map, hshows.length_eq])]
  rfl

/-- A tuple of another length is refused, and its items are given back. -/
theorem expectTuple_length {us : List ValueTree} {arity : Nat} (hx : x.Shows base (.tuple us))
    (harity : us.length ≠ arity) (deep : env.Deep 1) (hstands : x.Stands base stakes)
    (hs : Staked base own stakes w.heap) (clear : w.pending = none) :
    ∃ w', expectTuple x.handle arity env w = .done none w' ∧
      w'.pending = some ((ValueTree.tuple us).noTuple arity) ∧ Staked base own stakes w'.heap := by
  obtain ⟨xs, w₁, hitems, hpending₁, hshows, hs₁⟩ := tupleItems_staked hx hstands hs env
  have hlength : (xs.map Stake.handle).length = us.length := by
    rw [List.length_map, hshows.length_eq]
  obtain ⟨w₂, hraise, hpending₂, hheap₂⟩ := raise_run .typeError
    s!"expected a tuple of length {arity}, got {us.length}" env (hpending₁.trans clear)
  rw [← hheap₂] at hs₁
  obtain ⟨w₃, hrelease, hpending₃, hs₃⟩ := releaseAll_staked xs deep hs₁
  refine ⟨w₃, ?_, hpending₃.trans hpending₂, hs₃⟩
  rw [expectTuple, bind_run, hitems]
  dsimp only
  rw [if_neg (hlength ▸ harity), hlength, bind_run, holding, raiseType, onFault_done hraise]
  dsimp only
  rw [bind_run, hrelease]
  rfl

theorem expectTuple_other (arity : Nat) (hp : w.heap.payload? h = some (τ.payload ks))
    (hother : ∀ us, τ ≠ .tuple us) (clear : w.pending = none) (env : Env U) :
    ∃ w', expectTuple h arity env w = .done none w' ∧ w'.pending = some (τ.noTuple arity) ∧
      w'.heap = w.heap := by
  obtain ⟨w', hraise, hpending, hheap⟩ := raise_run .typeError
    s!"expected tuple, not {τ.typeName}" env clear
  have hnoTuple : τ.noTuple arity = ⟨.typeError, s!"expected tuple, not {τ.typeName}"⟩ := by
    cases τ with
    | tuple us => exact absurd rfl (hother us)
    | _ => rfl
  refine ⟨w', ?_, hpending.trans (congrArg some hnoTuple.symm), hheap⟩
  rw [expectTuple, bind_run, tupleItems_other hp hother]
  dsimp only
  rw [bind_run, typeNameOf_run hp]
  dsimp only
  rw [bind_run, raiseType, hraise]
  rfl

/-- A tuple of the length looked for is taken apart; anything else is refused. -/
theorem tuple_settles {α : Type} {arity : Nat} {k : List Handle → Act U (Option α)}
    {Q : Option α → World U → Prop} (deep : env.Deep 1) (hx : x.Shows base τ)
    (hstands : x.Stands base stakes) (hs : Staked base own stakes w.heap)
    (clear : w.pending = none)
    (hfound : ∀ us xs w', τ = .tuple us → us.length = arity → w'.pending = none →
      List.Forall₂ (Stake.Shows base) xs us → Staked base own (↑xs + stakes) w'.heap →
      (k (xs.map Stake.handle) env w').Settles False Q)
    (hother : ∀ w', (∀ us, τ = .tuple us → us.length ≠ arity) →
      w'.pending = some (τ.noTuple arity) → Staked base own stakes w'.heap → Q none w') :
    ((do
      match ← expectTuple x.handle arity with
      | none => pure none
      | some items => k items : Act U (Option α)) env w).Settles False Q := by
  by_cases htuple : ∃ us, τ = .tuple us
  · obtain ⟨us, rfl⟩ := htuple
    by_cases harity : us.length = arity
    · subst harity
      obtain ⟨xs, w', hrun, clear', hshows, hs'⟩ := expectTuple_found hx hstands hs clear env
      rw [bind_run, hrun]
      exact hfound us xs w' rfl rfl clear' hshows hs'
    · obtain ⟨w', hrun, hpending, hs'⟩ := expectTuple_length hx harity deep hstands hs clear
      rw [bind_run, hrun]
      exact hother w' (fun us' hus' => by cases hus'; exact harity) hpending hs'
  · obtain ⟨ks, holds, -⟩ := hx.exists_payload
    obtain ⟨w', hrun, hpending, hheap⟩ := expectTuple_other arity
      (hs.payload? hstands holds) (fun us hus => htuple ⟨us, hus⟩) clear env
    rw [bind_run, hrun]
    exact hother w' (fun us hus => absurd ⟨us, hus⟩ htuple) hpending (hheap ▸ hs)

theorem breadth_le_of_mem_tuple {us : List ValueTree} {u : ValueTree} {n : Nat}
    (hbreadth : (ValueTree.tuple us).breadth ≤ n) (hu : u ∈ us) : u.breadth ≤ n :=
  (ValueTree.breadth_le_of_mem (t := .tuple us) hu).trans hbreadth

theorem decode_pair_other (hother : ∀ us, τ = .tuple us → us.length ≠ 2) :
    (NativeType.pair a b).decode τ = .error (τ.noTuple 2) := by
  rw [NativeType.decode]
  rintro y z rfl
  exact hother _ rfl rfl

theorem decode_triple_other (hother : ∀ us, τ = .tuple us → us.length ≠ 3) :
    (NativeType.triple a b c).decode τ = .error (τ.noTuple 3) := by
  rw [NativeType.decode]
  rintro y z r rfl
  exact hother _ rfl rfl

/-- What parts of a value own goes before what is held besides. -/
theorem Staked.append {L K : List Stake} (hs : Staked base own (↑L + (↑K + stakes)) w.heap) :
    Staked base own (↑(L ++ K) + stakes) w.heap := by
  rwa [← Multiset.coe_add, add_assoc]

theorem decodes_error {decoded : Except Raised t.Decoded} {e : Raised}
    (hdecode : decoded = .error e) (hpending : w.pending = some e)
    (hs : Staked base own stakes w.heap) : Decodes base own stakes t decoded none w := by
  rw [hdecode]
  exact ⟨hpending, rfl, hs⟩

/-- With its last part read, a tuple gives its items back and is complete. -/
theorem complete_settles {v : t.Value} {d : t.Decoded} {decoded : Except Raised t.Decoded}
    {L : List Stake} (items : List Stake) (deep : env.Deep 1) (hdecode : decoded = .ok d)
    (hbacks : Backs base t v d L) (clear : w.pending = none)
    (hs : Staked base own (↑items + (↑L + stakes)) w.heap) :
    ((do
      releaseAll (items.map Stake.handle)
      pure (some v) : Act U (Option t.Value)) env w).Settles False
      (Decodes base own stakes t decoded) := by
  obtain ⟨w', hrelease, hpending, hs'⟩ := releaseAll_staked items deep hs
  rw [bind_run, hrelease, hdecode]
  exact ⟨hpending.trans clear, v, L, rfl, hbacks, hs'⟩

theorem Backs.pair {v : a.Value} {v' : b.Value} {d : a.Decoded} {d' : b.Decoded}
    {L K : List Stake} (h : Backs base a v d L) (h' : Backs base b v' d' K) :
    Backs base (.pair a b) (v, v') (d, d') (L ++ K) where
  units := by
    rw [List.map_append, h.units, h'.units]
    rfl
  images := ⟨h.images_of_subset (List.subset_append_left L K),
    h'.images_of_subset (List.subset_append_right L K)⟩

theorem Backs.triple {v : a.Value} {v' : b.Value} {v'' : c.Value} {d : a.Decoded} {d' : b.Decoded}
    {d'' : c.Decoded} {L K M : List Stake} (h : Backs base a v d L) (h' : Backs base b v' d' K)
    (h'' : Backs base c v'' d'' M) :
    Backs base (.triple a b c) (v, v', v'') (d, d', d'') (L ++ K ++ M) where
  units := by
    rw [List.map_append, List.map_append, h.units, h'.units, h''.units]
    rfl
  images := ⟨h.images_of_subset fun y hy => by simp [hy],
    h'.images_of_subset fun y hy => by simp [hy], h''.images_of_subset fun y hy => by simp [hy]⟩

theorem Reads.pair (ha : Reads env base n a) (hb : Reads env base n b) (deep : env.Deep 1) :
    Reads env base n (.pair a b) := by
  intro τ x own stakes w hx hbreadth hstands hs clear
  rw [fromPeer]
  refine tuple_settles deep hx hstands hs clear ?_ ?_
  · rintro us xs w₁ rfl harity clear₁ hshows hs₁
    obtain ⟨u₁, u₂, rfl⟩ := List.length_eq_two.1 harity
    obtain ⟨x₁, x₂, rfl⟩ := List.length_eq_two.1 hshows.length_eq
    obtain ⟨hx₁, hx₂⟩ : x₁.Shows base u₁ ∧ x₂.Shows base u₂ := by simpa using hshows
    have hle (u : ValueTree) (hu : u ∈ [u₁, u₂]) := breadth_le_of_mem_tuple hbreadth hu
    refine part_settles [x₁, x₂] deep
      (ha hx₁ (hle u₁ (by simp)) (hx₁.stands (by simp)) hs₁ clear₁) ?_ ?_
    · intro d v L w₂ hd clear₂ hbacks hs₂
      have hs₂ := hs₂.append
      simp only [← hbacks.units, ← List.map_append]
      refine part_settles (L ++ [x₁, x₂]) deep
        (hb hx₂ (hle u₂ (by simp)) (hx₂.stands (by simp)) hs₂ clear₂) ?_ ?_
      · intro e v' K w₃ he clear₃ hbacks' hs₃
        refine complete_settles [x₁, x₂] deep ?_ (hbacks.pair hbacks') clear₃ (hs₃.congr ?_)
        · rw [NativeType.decode, hd, he]
          rfl
        · simp only [← Multiset.coe_add]
          abel
      · intro e w₃ he hpending₃ hs₃
        exact decodes_error (by rw [NativeType.decode, hd, he]; rfl) hpending₃ hs₃
    · intro e w₂ he hpending₂ hs₂
      exact decodes_error (by rw [NativeType.decode, he]; rfl) hpending₂ hs₂
  · intro w₁ hother hpending₁ hs₁
    exact decodes_error (decode_pair_other hother) hpending₁ hs₁

theorem Reads.triple (ha : Reads env base n a) (hb : Reads env base n b) (hc : Reads env base n c)
    (deep : env.Deep 1) : Reads env base n (.triple a b c) := by
  intro τ x own stakes w hx hbreadth hstands hs clear
  rw [fromPeer]
  refine tuple_settles deep hx hstands hs clear ?_ ?_
  · rintro us xs w₁ rfl harity clear₁ hshows hs₁
    obtain ⟨u₁, u₂, u₃, rfl⟩ := List.length_eq_three.1 harity
    obtain ⟨x₁, x₂, x₃, rfl⟩ := List.length_eq_three.1 hshows.length_eq
    obtain ⟨hx₁, hx₂, hx₃⟩ : x₁.Shows base u₁ ∧ x₂.Shows base u₂ ∧ x₃.Shows base u₃ := by
      simpa using hshows
    have hle (u : ValueTree) (hu : u ∈ [u₁, u₂, u₃]) := breadth_le_of_mem_tuple hbreadth hu
    refine part_settles [x₁, x₂, x₃] deep
      (ha hx₁ (hle u₁ (by simp)) (hx₁.stands (by simp)) hs₁ clear₁) ?_ ?_
    · intro d v L w₂ hd clear₂ hbacks hs₂
      have hs₂ := hs₂.append
      simp only [← hbacks.units, ← List.map_append]
      refine part_settles (L ++ [x₁, x₂, x₃]) deep
        (hb hx₂ (hle u₂ (by simp)) (hx₂.stands (by simp)) hs₂ clear₂) ?_ ?_
      · intro e v' K w₃ he clear₃ hbacks' hs₃
        have hs₃ := hs₃.append
        rw [← List.append_assoc] at hs₃
        simp only [← hbacks'.units, ← List.map_append]
        refine part_settles (K ++ L ++ [x₁, x₂, x₃]) deep
          (hc hx₃ (hle u₃ (by simp)) (hx₃.stands (by simp)) hs₃ clear₃) ?_ ?_
        · intro f v'' M w₄ hf clear₄ hbacks'' hs₄
          refine complete_settles [x₁, x₂, x₃] deep ?_ (hbacks.triple hbacks' hbacks'') clear₄
            (hs₄.congr ?_)
          · rw [NativeType.decode, hd, he, hf]
            rfl
          · simp only [← Multiset.coe_add]
            abel
        · intro r w₄ hr hpending₄ hs₄
          exact decodes_error (by rw [NativeType.decode, hd, he, hr]; rfl) hpending₄ hs₄
      · intro r w₃ hr hpending₃ hs₃
        exact decodes_error (by rw [NativeType.decode, hd, hr]; rfl) hpending₃ hs₃
    · intro r w₂ hr hpending₂ hs₂
      exact decodes_error (by rw [NativeType.decode, hr]; rfl) hpending₂ hs₂
  · intro w₁ hother hpending₁ hs₁
    exact decodes_error (decode_triple_other hother) hpending₁ hs₁

/-- A failure that describes itself is reported by raising. -/
theorem reflected_settles {α : Type} {f : Failure} {P : Option α → World U → Prop}
    (hkind : f.kind.exception? = some .typeError)
    (h : ∀ w', w'.pending = some ⟨.typeError, f.message⟩ → w'.heap = w.heap → P none w') :
    ((reflected (.error f) : Act U (Option α)) env w).Settles False P := by
  obtain ⟨w', hreflect, hpending, hheap⟩ := reflect_run hkind env w
  rw [reflected, bind_run, hreflect]
  exact h w' hpending hheap

/-- No view is made of an object that cannot be passed over. -/
theorem make_refused (hp : w.heap.payload? h = some (τ.payload ks)) (hnone : τ.elements? = none)
    (env : Env U) (clear : w.pending = none) :
    ∃ w', View.make h env w = .done (.error (.of (.notIterable τ.typeName))) w' ∧
      w'.heap = w.heap := by
  have htake : Indicator.take env w = .done none w := by
    obtain ⟨heap, pending, settings, client⟩ := w
    cases clear
    rfl
  obtain ⟨w₁, hraise, -, hheap₁⟩ := raise_none_run (α := Handle) .typeError
    s!"'{τ.typeName}' object is not iterable" env clear
  have hiter : getIter h env w = .done none w₁ := by
    rw [← hraise]
    simp only [getIter, bind_run, Act.heap, hp]
    cases τ <;> first | rfl | cases hnone
  obtain ⟨w₂, hclear, clear₂, hheap₂⟩ := clear_run env w₁
  have hiterable : isIterable h env w = .done false w₂ := by
    unfold isIterable
    rw [bind_run, htake]
    dsimp only
    rw [bind_run, hiter]
    dsimp only
    rw [bind_run]
    simp only [Option.toList_none, releaseAll, pure_run]
    rw [bind_run, hclear]
    rfl
  have hp₂ : w₂.heap.payload? h = some (τ.payload ks) := by rw [hheap₂, hheap₁, hp]
  refine ⟨w₂, ?_, hheap₂.trans hheap₁⟩
  rw [View.make, bind_run, hiterable]
  dsimp only
  rw [if_neg Bool.false_ne_true, bind_run, typeNameOf_run hp₂]
  rfl

theorem Reads.vec (ht : Reads env base n t) (deep : env.Deep 2) (budget : n < env.budget)
    (room : n * t.width < 2 ^ 63) : Reads env base n (.vec t) := by
  intro τ x own stakes w hx hbreadth hstands hs clear
  rw [fromPeer]
  cases hts : τ.elements? with
  | some ts =>
    obtain ⟨body, items, hq⟩ := hx.exists_sequence hts
    have hdecode : (NativeType.vec t).decode τ =
        (NativeType.decodeFrom t.decode 0 ts).mapError NativeType.badElement := by
      rw [NativeType.decode, hts]
      rfl
    have hall : ReadsAll env base t ts := fun u hu {y own stakes w} hy hystands hs clear =>
      ht hy ((ValueTree.breadth_le_of_mem_elements hts hu).trans hbreadth) hystands hs clear
    have hlength := (ValueTree.length_le_breadth hts).trans hbreadth
    have hroom := (Nat.mul_le_mul_right t.width hlength).trans_lt room
    refine (collectObject_staked hq hall deep (hlength.trans_lt budget) hroom hs hstands
      clear).bind fun r w₁ _ h₁ => ?_
    obtain ⟨clear₁, h₁⟩ := h₁
    cases hdecoded : NativeType.decodeFrom t.decode 0 ts with
    | ok ds =>
      rw [hdecoded] at h₁
      obtain ⟨vs, L, rfl, hbacks, hs₁⟩ := h₁
      rw [hdecode, hdecoded]
      exact ⟨clear₁, vs, L, rfl, hbacks, hs₁⟩
    | error i =>
      rw [hdecoded] at h₁
      obtain ⟨rfl, hs₁⟩ := h₁
      rw [hdecode, hdecoded]
      exact reflected_settles rfl fun w₂ hpending₂ hheap₂ => ⟨hpending₂, rfl, hheap₂ ▸ hs₁⟩
  | none =>
    obtain ⟨ks, holds, -⟩ := hx.exists_payload
    obtain ⟨w₁, hmake, hheap₁⟩ := make_refused (hs.payload? hstands holds) hts env clear
    have hcollect : collectObject (builtinIntake t) x.handle env w =
        .done (.error (.of (.notIterable τ.typeName))) w₁ := by
      rw [collectObject, bind_run, hmake]
      rfl
    have hdecode : (NativeType.vec t).decode τ = .error (NativeType.notIterable τ) := by
      rw [NativeType.decode, hts]
    change ((collectObject (builtinIntake t) x.handle >>= reflected) env w).Settles _ _
    rw [bind_run, hcollect, hdecode]
    refine reflected_settles rfl fun w₂ hpending₂ hheap₂ => ⟨hpending₂, rfl, ?_⟩
    rw [hheap₂, hheap₁]
    exact hs

theorem reads_view (deep : env.Deep 2) : Reads env base n (.view t) := by
  intro τ x own stakes w hx _ hstands hs clear
  rw [fromPeer]
  cases hts : τ.elements? with
  | some ts =>
    obtain ⟨body, items, hq⟩ := hx.exists_sequence hts
    have hdecode : (NativeType.view t).decode τ = .ok τ := by simp [NativeType.decode, hts]
    obtain ⟨w₁, hmake, clear₁, hs₁⟩ := hq.make_staked deep hs hstands clear
    rw [bind_run, hmake, hdecode]
    exact ⟨clear₁, x.handle, [x], rfl, ⟨rfl, x, List.mem_cons_self, rfl, hx⟩, hs₁⟩
  | none =>
    obtain ⟨ks, holds, -⟩ := hx.exists_payload
    obtain ⟨w₁, hmake, hheap₁⟩ := make_refused (hs.payload? hstands holds) hts env clear
    have hdecode : (NativeType.view t).decode τ = .error (NativeType.notIterable τ) := by
      simp [NativeType.decode, hts]
    rw [bind_run, hmake, hdecode]
    refine reflected_settles rfl fun w₂ hpending₂ hheap₂ => ⟨hpending₂, rfl, ?_⟩
    rw [hheap₂, hheap₁]
    exact hs

theorem reads_callable : Reads env base n .callable := by
  intro τ x own stakes w hx _ hstands hs _
  obtain ⟨ks, holds, -⟩ := hx.exists_payload
  have hp := hs.payload? hstands holds
  have hplain : (τ.payload ks).isFunction = false := by cases τ <;> rfl
  have hmake : makeCallable x.handle env w = .done (.error (.of (.notCallable τ.typeName))) w := by
    simp [makeCallable, isCallable, askPayload, bind_run, Act.heap, hp, pure_run, hplain,
      typeNameOf_run hp]
  rw [fromPeer, NativeType.decode, bind_run, hmake]
  exact reflected_settles rfl fun w₁ hpending₁ hheap₁ => ⟨hpending₁, rfl, hheap₁ ▸ hs⟩

theorem reads_fromPeer (deep : env.Deep 2) (budget : n < env.budget) (t : NativeType)
    (room : t.RoomFor n) : Reads env base n t := by
  induction t with
  | i64 => exact reads_i64
  | i32 => exact reads_i32
  | usize => exact reads_usize
  | f64 => exact reads_f64
  | bool => exact reads_bool
  | text => exact reads_text
  | unit => exact reads_unit
  | object => exact reads_object
  | option t ih => exact Reads.option (ih room)
  | pair a b iha ihb => exact Reads.pair (iha room.1) (ihb room.2) (deep.of_le (by omega))
  | triple a b c iha ihb ihc =>
    exact Reads.triple (iha room.1) (ihb room.2.1) (ihc room.2.2) (deep.of_le (by omega))
  | vec t ih => exact Reads.vec (ih room.2) deep budget room.1
  | view t => exact reads_view deep
  | callable => exact reads_callable

theorem Stake.Shows.on_heap {heap next : Heap} (hx : x.Shows heap.entryAt? τ)
    (hs : Staked heap.entryAt? own stakes next) (hstands : x.Stands heap.entryAt? stakes) :
    next.Shows x.handle τ := by
  cases x with
  | known h =>
    refine ValueTree.Shows.mono hx fun k p hk => ?_
    obtain ⟨e, he, rfl⟩ := Option.map_eq_some_iff.1 hk
    exact Overlay.payload?_base hs he
  | text h s =>
    cases hx
    exact .intro (hs.payload? hstands rfl) .nil

/-- An object from which acyclic data hangs shows one value tree, and converting it goes by that
tree, whatever the type, the settings and the user code around. If the tree decodes, the value is
what it decodes to, the indicator is clear, the heap has gained the units of the value only, and
giving these back restores it. Otherwise the error of the decoding is pending, which is of a type or
a range, and every entry of the heap is as it was. -/
theorem fromPeer_decodes (observe : Log.Event → U → U) (user : Env U → Hooks U) {w : World U}
    {root : Handle} (ho : w.heap.InOrder) (hdata : w.heap.AcyclicData root)
    (clear : w.pending = none) (t : NativeType) :
    ∃ τ, w.heap.Shows root τ ∧ (∀ τ', w.heap.Shows root τ' → τ' = τ) ∧
      ∀ n, τ.breadth + 2 ≤ n → t.RoomFor τ.breadth →
        match t.decode τ with
        | .ok d => ∃ v w', fromPeer t root (Env.tie observe user n) w = .done (some v) w' ∧
          w'.pending = none ∧ t.Images w'.heap.Shows v d ∧ w.heap.Gains (t.units v) w'.heap ∧
          ∃ w'', releaseAll (t.units v) (Env.tie observe user n) w' = .done () w'' ∧
            w''.pending = none ∧ ∀ h, w''.heap.entryAt? h = w.heap.entryAt? h
        | .error e => ∃ w', fromPeer t root (Env.tie observe user n) w = .done none w' ∧
          w'.pending = some e ∧ (e.kind = .typeError ∨ e.kind = .overflowError) ∧
          ∀ h, w'.heap.entryAt? h = w.heap.entryAt? h := by
  obtain ⟨τ, hshows⟩ := hdata.exists_shows
  refine ⟨τ, hshows, fun τ' h => h.unique hshows, fun n hn room => ?_⟩
  have deep : (Env.tie observe user n).Deep 2 := (tie_deep observe user n).of_le (by omega)
  have budget : τ.breadth < (Env.tie observe user n).budget := by
    obtain ⟨m, rfl⟩ : ∃ m, n = m + 1 := ⟨n - 1, by omega⟩
    change τ.breadth < m
    omega
  have hx : (Stake.known root).Shows w.heap.entryAt? τ := hshows
  have hread := reads_fromPeer deep budget t room hx le_rfl hx.exists_entry (Staked.start ho) clear
  obtain ⟨o, w', hrun, h⟩ := hread.exists_done
  cases hdecoded : t.decode τ with
  | ok d =>
    rw [hdecoded] at h
    obtain ⟨clear', v, L, rfl, hbacks, hs⟩ := h
    rw [add_zero] at hs
    obtain ⟨w'', hrelease, hpending, hs''⟩ :=
      releaseAll_staked L (deep.of_le (by omega)) (hs.congr (add_zero _).symm)
    rw [hbacks.units] at hrelease
    refine ⟨v, w', hrun, clear', ?_, hbacks.units ▸ hs.gains, w'', hrelease, hpending.trans clear',
      Overlay.entryAt?_eq hs''⟩
    refine hbacks.images.mono t v d fun k _ u hk => ?_
    obtain ⟨y, hy, rfl, hshows⟩ := hk
    exact hshows.on_heap hs (hshows.stands hy)
  | error e =>
    rw [hdecoded] at h
    obtain ⟨hpending, rfl, hs⟩ := h
    exact ⟨w', hrun, hpending, NativeType.decode_error_kind hdecoded, Overlay.entryAt?_eq hs⟩

def sharingHeap : Heap :=
  let heap := (Heap.empty.insert (.int 7)).2
  let heap := ((heap.increment? ⟨0, 0⟩).map (·.2)).getD heap
  let heap := (heap.insert (.list [⟨0, 0⟩])).2
  (heap.insert (.tuple [some ⟨0, 0⟩, some ⟨1, 0⟩])).2

theorem sharingHeap_inOrder : sharingHeap.InOrder := by
  have hseven : (Heap.empty.insert (.int 7)).2.InOrder :=
    Heap.insert_inOrder Heap.empty_inOrder _
  obtain ⟨n, next, hnext⟩ : ∃ n next,
      (Heap.empty.insert (.int 7)).2.increment? ⟨0, 0⟩ = some (n, next) := ⟨_, _, rfl⟩
  have htwice : next.InOrder := Heap.increment?_inOrder hnext hseven
  rw [sharingHeap, hnext]
  exact Heap.insert_inOrder (Heap.insert_inOrder htwice _) _

/-- The int that is shared comes out as an object with one more unit, and again as a number. -/
theorem fromPeer_decodes_shared :
    let w : World Unit := ⟨sharingHeap, none, {}, ()⟩
    let t : NativeType := .pair .object (.vec .i64)
    ∃ (h : Handle) (w' : World Unit),
      fromPeer t ⟨2, 0⟩ (.tie (fun _ u => u) (fun _ => .exhausted) 4) w =
        .done (some (h, [(7 : Int64)])) w' ∧
      w'.pending = none ∧ w'.heap.Shows h (.int 7) ∧ w.heap.Gains [h] w'.heap := by
  intro w t
  have hshows : w.heap.Shows ⟨2, 0⟩ (.tuple [.int 7, .list [.int 7]]) :=
    .intro rfl (.cons (.intro rfl .nil) (.cons (.intro rfl (.cons (.intro rfl .nil) .nil)) .nil))
  obtain ⟨τ, -, hunique, hall⟩ := fromPeer_decodes (fun _ u => u) (fun _ => .exhausted) (w := w)
    sharingHeap_inOrder (Heap.acyclicData_iff.2 ⟨_, hshows⟩) rfl t
  obtain rfl := hunique _ hshows
  obtain ⟨⟨h, is⟩, w', hrun, clear, ⟨hh, his⟩, hgains, -⟩ :=
    hall 4 (by decide) ⟨trivial, by decide, trivial⟩
  have hforall : List.Forall₂ Eq (is : List Int64) [(7 : Int64)] := his
  rw [List.forall₂_eq_eq_eq] at hforall
  cases hforall
  exact ⟨h, w', hrun, clear, hh, hgains⟩

end Causeway
