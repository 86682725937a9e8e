import Causeway.Proofs.NativeConservation
import Causeway.Proofs.Settling
/-!
# What user code leaves alone

Code that is not the library's could do anything to an object. What is assumed of it here concerns
one object and one payload: while someone keeps a unit on the object and the payload is this one, it
stays. Objects whose state is away are such a case, for nothing but the call that lent the state can
bring it back; so is a container that nobody changes meanwhile.

The library's own conversions and releases keep to it as long as user code does.
-/
set_option autoImplicit false

namespace Causeway

open Act

variable {U α β : Type}

def Outcome.Leaves (h : Handle) (p : Payload) (w : World U) (out : Outcome U α) : Prop :=
  w.heap.payload? h = some p → out.Settles True fun _ w' => w'.heap.payload? h = some p

/-- User code leaves the payload of an object alone that someone keeps a unit on. -/
structure Hooks.Spares (O : Ownership U) (h : Handle) (p : Payload) (hooks : Hooks U) : Prop where
  call : ∀ code hs E w, h ∈ E → Exact O E w → (hooks.call code hs w).Leaves h p w
  slot : ∀ code k E w, h ∈ E → Exact O E w → (hooks.slot code k w).Leaves h p w
  measure : ∀ code k E w, h ∈ E → Exact O E w → (hooks.measure code k w).Leaves h p w
  destroy : ∀ code (hs : List Handle) E w, h ∈ E → Exact O (↑hs + E) w →
    (hooks.destroy code hs w).Leaves h p w
  toPeer : ∀ code t v E w, h ∈ E → Exact O E w → (hooks.toPeer code t v w).Leaves h p w

structure Env.Spares (O : Ownership U) (h : Handle) (p : Payload) (env : Env U) : Prop where
  release : ∀ k E w, h ∈ E → Exact O ({k} + E) w → (env.release k w).Leaves h p w
  hooks : env.hooks.Spares O h p

/-- From `H` in hand to `K`, and the payload of an object that someone else keeps stays. -/
def Act.Guards (O : Ownership U) (h : Handle) (p : Payload) (env : Env U) (H : Multiset Handle)
    (act : Act U α) (K : α → Multiset Handle) : Prop :=
  ∀ E w, h ∈ E → Exact O (H + E) w → w.heap.payload? h = some p →
    (act env w).Settles True fun a w' => Exact O (K a + E) w' ∧ w'.heap.payload? h = some p

def Act.Still (act : Act U α) : Prop :=
  ∀ env w, (act env w).Settles True fun _ w' => w'.heap = w.heap

namespace Act

variable {O : Ownership U} {h : Handle} {p : Payload} {env : Env U} {H H' I : Multiset Handle}
  {K K' : α → Multiset Handle} {L : β → Multiset Handle}

namespace Still

theorem pure (a : α) : (Pure.pure a : Act U α).Still := fun _ _ => rfl

theorem bind {x : Act U α} {f : α → Act U β} (hx : x.Still) (hf : ∀ a, (f a).Still) :
    (x >>= f).Still :=
  fun env w => (hx env w).bind fun a w' _ h => (hf a env w').mono fun _ _ _ h' => h'.trans h

theorem emit (e : Log.Event) : (Act.emit e : Act U Unit).Still := fun _ _ => rfl

theorem swap (next : Option Raised) : (Indicator.swap next : Act U (Option Raised)).Still :=
  fun _ _ => rfl

theorem clear : (Indicator.clear : Act U Unit).Still := by
  refine .bind (.swap none) fun found => ?_
  cases found with
  | none => exact .pure ()
  | some e => exact .emit _

theorem reserve (count width : Nat) : (Act.reserve count width : Act U Unit).Still := by
  unfold Act.reserve
  split
  · exact .pure ()
  · exact fun _ _ => trivial

theorem raise (kind : ExceptionKind) (message : String) :
    (Causeway.raise kind message : Act U Unit).Still := by
  refine .bind (.emit _) fun _ => .bind (.swap _) fun previous => ?_
  cases previous with
  | none => exact .pure ()
  | some e =>
    refine .bind (fun _ _ => rfl : (Act.settings : Act U Settings).Still) fun settings => ?_
    split
    · exact fun _ _ => trivial
    · exact .emit _

theorem reflect (f : Failure) : (f.reflect : Act U Unit).Still := by
  unfold Failure.reflect
  split
  · exact .bind .clear fun _ => .raise _ _
  · refine .bind (fun _ _ => rfl : (Indicator.isSet : Act U Bool).Still) fun pending => ?_
    split
    · exact .pure ()
    · exact .raise _ _

end Still

namespace Guards

/-- What is known to conserve units has only to leave the payload alone. -/
theorem of_conserves {act : Act U α} (henv : env.Lawful O) (hc : Conserves O .strict H act K)
    (hleaves : ∀ E w, h ∈ E → Exact O (H + E) w → (act env w).Leaves h p w) :
    act.Guards O h p env H K := by
  intro E w hE hx hp
  have hout := hc env henv w (hx.ready.of_frame E)
  refine ((hleaves E w hE hx hp).conserved hout).mono fun a w' _ h => ?_
  exact ⟨h.2.exact_frame hx, h.1⟩

theorem still {act : Act U α} (henv : env.Lawful O) (hc : Conserves O .strict H act K)
    (hact : act.Still) : act.Guards O h p env H K :=
  of_conserves henv hc fun _ w _ _ hp => (hact env w).mono fun _ _ _ h' => by rw [h', hp]

theorem of_eq {act : Act U α} (hact : act.Guards O h p env H K) (hH : H = H')
    (hK : ∀ a, K a = K' a) : act.Guards O h p env H' K' := by
  have hfun : K = K' := funext hK
  rwa [← hH, ← hfun]

theorem frame {act : Act U α} (hact : act.Guards O h p env H K) (F : Multiset Handle) :
    act.Guards O h p env (H + F) fun a => K a + F := by
  intro E w hE hx hp
  rw [add_assoc] at hx
  refine (hact (F + E) w (Multiset.mem_add.2 (.inr hE)) hx hp).mono fun a w' _ h => ?_
  rwa [add_assoc]

theorem pure {a : α} (hK : H = K a) : (Pure.pure a : Act U α).Guards O h p env H K := by
  intro E w _ hx hp
  rw [hK] at hx
  exact ⟨hx, hp⟩

theorem next {x : Act U α} {f : α → Act U β} (hx : x.Guards O h p env H K)
    (hf : ∀ a, (f a).Guards O h p env (K a) L) : (x >>= f).Guards O h p env H L :=
  fun E w hE hexact hp =>
    (hx E w hE hexact hp).bind fun a w' _ hout => hf a E w' hE hout.1 hout.2

/-- The first act uses `I` only; the second takes the rest as well. -/
theorem bind {x : Act U α} {f : α → Act U β} (F : Multiset Handle)
    (hx : x.Guards O h p env I K) (hH : H = I + F)
    (hf : ∀ a, (f a).Guards O h p env (K a + F) L) : (x >>= f).Guards O h p env H L := by
  rw [hH]
  exact next (hx.frame F) hf

/-- Before an act that uses what is in hand, one that keeps its hands to itself. -/
theorem aside {x : Act U α} {f : α → Act U β} (hx : x.Guards O h p env 0 fun _ => 0)
    (hf : ∀ a, (f a).Guards O h p env H L) : (x >>= f).Guards O h p env H L :=
  hx.bind H (zero_add H).symm fun a => (hf a).of_eq (zero_add H).symm fun _ => rfl

theorem ask {x : Act U α} {f : α → Act U β} (hx : x.Reads)
    (hf : ∀ a, (f a).Guards O h p env H L) : (x >>= f).Guards O h p env H L := by
  intro E w hE hexact hp
  rw [bind_run]
  obtain hr | ⟨a, hr⟩ := hx w
  · rw [hr]
    trivial
  · rw [hr]
    exact hf a E w hE hexact hp

theorem map {x : Act U α} {f : α → β} (hx : x.Guards O h p env H fun a => L (f a)) :
    (f <$> x).Guards O h p env H L :=
  hx.next fun _ => .pure rfl

theorem onFault {act : Act U α} {cleanup : Act U Unit} (hact : act.Guards O h p env H K) :
    (act.onFault cleanup).Guards O h p env H K := by
  intro E w hE hx hp
  have hout := hact E w hE hx hp
  unfold Act.onFault
  cases hr : act env w with
  | done a w' =>
    rw [hr] at hout
    exact hout
  | fault c w' =>
    dsimp only
    cases cleanup env w' <;> trivial
  | unfinished => trivial

end Guards

end Act

section

variable {O : Ownership U} {h : Handle} {p : Payload} {env : Env U} {H : Multiset Handle}

section

variable (henv : env.Lawful O)

include henv

theorem traced_guards (e : Log.Event) : (traced e : Act U Unit).Guards O h p env 0 fun _ => 0 := by
  refine .ask .settings fun settings => ?_
  split
  · exact .still henv (.emit e) (.emit e)
  · exact .pure rfl

theorem alloc_guards (q : Payload) :
    (alloc q : Act U Handle).Guards O h p env ↑q.units fun k => {k} := by
  refine .next (.of_conserves henv (insert_conserves q) fun E w _ hx hp => ?_) fun k =>
    .aside (traced_guards henv _) fun _ => .pure rfl
  have hne : h ≠ (w.heap.insert q).1 := by
    rintro rfl
    obtain ⟨e, he, _⟩ := (Heap.payload?_eq_some_iff _ _ _).1 hp
    rw [Heap.insert_fresh hx.inOrder] at he
    cases he
  change (w.heap.insert q).2.payload? h = some p
  rwa [Heap.payload?, Heap.insert_entryAt? hx.inOrder, if_neg hne]

theorem allocLeaf_guards {q : Payload} (hq : q.units = []) :
    (alloc q : Act U Handle).Guards O h p env 0 fun k => {k} :=
  (alloc_guards henv q).of_eq (by rw [hq]; rfl) fun _ => rfl

theorem newTuple_guards (items : List Handle) :
    (newTuple items : Act U Handle).Guards O h p env ↑items fun k => {k} :=
  (alloc_guards henv _).of_eq (by simp [Payload.units]) fun _ => rfl

theorem acquire_guards {k : Handle} {K : Handle → Multiset Handle} (hK : K k = {k}) :
    (acquire k : Act U Handle).Guards O h p env 0 K := by
  refine .of_conserves henv (acquire_conserves hK) fun E w _ _ hp => ?_
  cases hi : w.heap.increment? k with
  | none =>
    have hr : acquire k env w = .fault (.acquireReleased k) w := by
      simp [acquire, bind_run, updateHeap?, hi, Act.fault]
    rw [hr]
    trivial
  | some r =>
    obtain ⟨n, heap⟩ := r
    obtain ⟨w', hrun, hnoted⟩ := traced_run (.acquired k n) env { w with heap }
    have hr : acquire k env w = .done k w' := by
      simp [acquire, bind_run, updateHeap?, hi, hrun, pure_run]
    rw [hr]
    change w'.heap.payload? h = some p
    rw [hnoted.kept.2, ← hp]
    exact Heap.increment?_payload? hi h

end

section

variable (henv : env.Lawful O) (hspares : env.Spares O h p)

include henv hspares

theorem release_guards (k : Handle) :
    (release k : Act U Unit).Guards O h p env {k} fun _ => 0 :=
  .of_conserves henv (release_conserves k) fun E w => hspares.release k E w

theorem releaseAll_guards (hs : List Handle) :
    (releaseAll hs : Act U Unit).Guards O h p env ↑hs fun _ => 0 := by
  induction hs with
  | nil => exact .pure rfl
  | cons k ks ih =>
    refine .bind ↑ks (.onFault (release_guards henv hspares k)) (coe_cons k ks) fun _ => ?_
    exact ih.of_eq (zero_add _).symm fun _ => rfl

/-- The object is not the one that loses its last unit, since someone else keeps it. -/
theorem releaseNow_guards (k : Handle) :
    (releaseNow k : Act U Unit).Guards O h p env {k} fun _ => 0 := by
  refine .of_conserves henv (releaseNow_conserves k) fun E w hE hx hp => ?_
  obtain ⟨_, hrun⟩ | ⟨n, heap, w', hd, hnoted, hrun⟩ | ⟨q, heap, w', hd, hnoted, hrun⟩ :=
    releaseNow_cases k env w
  · rw [hrun]
    trivial
  · rw [hrun]
    change w'.heap.payload? h = some p
    rw [hnoted.kept.2, ← hp]
    exact Heap.decrement?_alive_payload? hd h
  · have m : Move O .strict ({k} + E, w) (↑q.units + E, { w with heap }) := .decrement hd
    have hx' := (hnoted.path henv).exact_aside (m.exact hx)
    have hkept : w'.heap.payload? h = some p := by
      have halive := hx'.isAlive (h := h) (by simp [hE])
      rw [hnoted.kept.2] at halive ⊢
      obtain ⟨e, he⟩ := (Heap.isAlive_iff _ _).1 halive
      have hfound := (Heap.payload?_eq_some_iff _ _ _).2 ⟨e, he, rfl⟩
      have hother := (Heap.decrement?_dead_payload? hd).2 h
      by_cases hk : h = k
      · rw [if_pos hk, hfound] at hother
        cases hother
      · rw [hother, if_neg hk, hp]
    obtain hrun | ⟨code, hrun⟩ := hrun
    · rw [hrun]
      exact (releaseAll_guards henv hspares q.units E w' hE hx' hkept).mono fun _ _ _ h => h.2
    · rw [hrun]
      exact hspares.hooks.destroy code q.units E w' hE hx' hkept

theorem convertFrom_guards (units : α → List Handle) {convert : α → Act U (Option Handle)}
    (hconvert : ∀ x, (convert x).Guards O h p env 0 fun o => ↑o.toList) (beyond : List Handle)
    (items : List α) (index : Nat) (converted : Array Handle) :
    (convertFrom units convert beyond items index converted).Guards O h p env
      ↑(items.flatMap units ++ beyond ++ converted.toList) (unitsOk fun hs => ↑hs) := by
  induction items generalizing index converted with
  | nil =>
    refine .bind ↑converted.toList (.onFault (releaseAll_guards henv hspares beyond)) ?_ fun _ => ?_
    · exact coe_append beyond converted.toList
    · exact .pure (zero_add _)
  | cons x xs ih =>
    refine .bind _ (.onFault (hconvert x)) (zero_add _).symm fun out => .ask isSet_reads fun _ => ?_
    split
    · rename_i k
      refine .bind ↑(xs.flatMap units ++ beyond ++ (converted.push k).toList)
        (.onFault (releaseAll_guards henv hspares (units x))) ?_ fun _ => ?_
      · simp only [Option.toList_some, List.flatMap_cons, coe_append, Array.toList_push,
          Multiset.coe_singleton]
        abel
      · exact (ih (index + 1) (converted.push k)).of_eq (zero_add _).symm fun _ => rfl
    · refine .bind ↑(out.toList ++ (x :: xs).flatMap units ++ beyond)
        (.onFault (releaseAll_guards henv hspares converted.toList)) ?_ fun _ => ?_
      · simp only [coe_append]
        abel
      · refine .aside (.still henv clear_conserves .clear) fun _ =>
          .aside (.still henv (.emit _) (.emit _)) fun _ => ?_
        exact .bind 0 (releaseAll_guards henv hspares _) (by simp) fun _ => .pure rfl

theorem convertAll_guards {t : NativeType} {units : t.Value → List Handle}
    (hunits : ∀ v, t.units v = [] → units v = []) {convert : t.Value → Act U (Option Handle)}
    (hconvert : ∀ x, (convert x).Guards O h p env 0 fun o => ↑o.toList) (source : Source t) :
    (convertAll units convert source).Guards O h p env
      ↑(source.stored.flatMap units) (unitsOk fun hs => ↑hs) := by
  refine .ask isSet_reads fun _ => ?_
  split
  · exact .next (releaseAll_guards henv hspares _) fun _ => .pure rfl
  · refine .next (.onFault (.still henv (reserve_conserves _ _) (.reserve _ _))) fun _ => ?_
    exact (convertFrom_guards henv hspares units hconvert _ _ 0 #[]).of_eq
      (by simp [source.flatMap_stored hunits]) fun _ => rfl

theorem toPeer_guards (t : NativeType) (v : t.Value) :
    (toPeer t v : Act U (Option Handle)).Guards O h p env 0 fun o => ↑o.toList := by
  induction t with
  | i64 | i32 | f64 | bool | text | unit => exact .map (allocLeaf_guards henv rfl)
  | usize =>
    unfold toPeer
    split
    · exact .map (allocLeaf_guards henv rfl)
    · exact .aside (.still henv (raise_conserves _ _) (.raise _ _)) fun _ => .pure rfl
  | object | view | callable => exact .map (acquire_guards henv rfl)
  | option t ih =>
    cases v with
    | none => exact .map (allocLeaf_guards henv rfl)
    | some v => exact ih v
  | pair a b iha ihb =>
    obtain ⟨x, y⟩ := v
    refine .next (iha x) fun k => ?_
    cases k with
    | none => exact .pure rfl
    | some k =>
      refine .bind {k} (.onFault (ihb y)) (by simp) fun l => ?_
      cases l with
      | none => exact .bind 0 (release_guards henv hspares k) (by simp) fun _ => .pure rfl
      | some l =>
        refine .map ((newTuple_guards henv [k, l]).of_eq ?_ fun _ => rfl)
        simp only [Option.toList_some, coe_cons]
        abel
  | triple a b c iha ihb ihc =>
    obtain ⟨x, y, z⟩ := v
    refine .next (iha x) fun k => ?_
    cases k with
    | none => exact .pure rfl
    | some k =>
      refine .bind {k} (.onFault (ihb y)) (by simp) fun l => ?_
      cases l with
      | none => exact .bind 0 (release_guards henv hspares k) (by simp) fun _ => .pure rfl
      | some l =>
        refine .bind ↑[l, k] (.onFault (ihc z)) ?_ fun m => ?_
        · simp only [Option.toList_some, coe_cons]
          abel
        · cases m with
          | none =>
            exact .bind 0 (releaseAll_guards henv hspares [l, k]) (by simp) fun _ => .pure rfl
          | some m =>
            refine .map ((newTuple_guards henv [k, l, m]).of_eq ?_ fun _ => rfl)
            simp only [Option.toList_some, coe_cons]
            abel
  | vec t ih =>
    have hnone : List.flatMap (fun _ => ([] : List Handle)) v = [] :=
      List.flatMap_eq_nil_iff.2 fun _ _ => rfl
    have hnothing : ∀ x : t.Value, t.units x = [] → (fun _ => ([] : List Handle)) x = [] :=
      fun _ _ => rfl
    have hall := convertAll_guards henv hspares hnothing ih (.listed v true)
    refine .next (hall.of_eq (congrArg _ hnone) fun _ => rfl) fun r => ?_
    cases r with
    | ok items => exact .map (alloc_guards henv (.list items))
    | error f => exact .aside (.still henv (reflect_conserves f) (.reflect f)) fun _ => .pure rfl

theorem convertOut_guards (code : Option CodeId) (t : NativeType) (v : t.Value) :
    (convertOut code t v : Act U (Option Handle)).Guards O h p env 0 fun o => ↑o.toList := by
  cases code with
  | none => exact toPeer_guards henv hspares t v
  | some code =>
    refine .of_conserves henv (convertOut_conserves (some code) t v) fun E w hE hx => ?_
    exact hspares.hooks.toPeer code t v E w hE (by rwa [zero_add] at hx)

end

end

/-- User code that leaves the payload alone in whatever environment does leaves it alone when tied
to itself. -/
theorem tie_spares {O : Ownership U} {h : Handle} {p : Payload} {observe : Log.Event → U → U}
    {user : Env U → Hooks U} (henv : ∀ n, (Env.tie observe user n).Lawful O)
    (huser : ∀ env, env.Lawful O → env.Spares O h p → (user env).Spares O h p) (n : Nat) :
    (Env.tie observe user n).Spares O h p := by
  induction n with
  | zero =>
    exact ⟨fun _ _ _ _ _ _ => trivial, fun _ _ _ _ _ _ _ => trivial, fun _ _ _ _ _ _ _ => trivial,
      fun _ _ _ _ _ _ _ => trivial, fun _ _ _ _ _ _ _ => trivial,
      fun _ _ _ _ _ _ _ _ => trivial⟩
  | succ n ih =>
    have hhooks := huser _ (henv n) ih
    refine ⟨fun k E w hE hx hp => ?_, hhooks.call, hhooks.slot, hhooks.measure, hhooks.destroy,
      hhooks.toPeer⟩
    exact (releaseNow_guards (henv n) ih k E w hE hx hp).mono fun _ _ _ h => h.2

theorem Env.ample_spares {O : Ownership U} {h : Handle} {p : Payload} {observe : Log.Event → U → U}
    {user : Env U → Hooks U} {budget : Nat} (henv : ∀ n, (Env.tie observe user n).Lawful O)
    (huser : ∀ env, env.Lawful O → env.Spares O h p → (user env).Spares O h p) :
    (Env.ample observe user budget).Spares O h p := by
  have htie := tie_spares henv huser
  exact ⟨fun k E w => (htie (2 * w.heap.stats.live + 1)).release k E w,
    fun c hs E w => (huser _ (henv _) (htie (2 * w.heap.stats.live + 1))).call c hs E w,
    fun c k E w => (huser _ (henv _) (htie (2 * w.heap.stats.live + 1))).slot c k E w,
    fun c k E w => (huser _ (henv _) (htie (2 * w.heap.stats.live + 1))).measure c k E w,
    fun c hs E w => (huser _ (henv _) (htie (2 * w.heap.stats.live + 1))).destroy c hs E w,
    fun c t v E w => (huser _ (henv _) (htie (2 * w.heap.stats.live + 1))).toPeer c t v E w⟩

end Causeway
