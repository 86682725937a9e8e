import Causeway.Proofs.Conservation
import Causeway.Object.Builtin
/-!
# Conservation by references, the indicator and builtin objects

Each action gives back what it was given or hands it over, and no more. The last section ties the
knot: user code that keeps to the discipline in every lawful environment makes `Env.tie` one.
-/
set_option autoImplicit false

namespace Causeway

open Act

variable {U α : Type} {O : Ownership U} {d : Discipline} {H : Multiset Handle}
  {K : α → Multiset Handle}

theorem coe_cons (h : Handle) (hs : List Handle) :
    ((h :: hs : List Handle) : Multiset Handle) = {h} + ↑hs :=
  (Multiset.singleton_add h ↑hs).symm

theorem coe_append (hs ks : List Handle) :
    ((hs ++ ks : List Handle) : Multiset Handle) = ↑hs + ↑ks :=
  (Multiset.coe_add hs ks).symm

theorem release_conserves (h : Handle) : Conserves O d {h} (release h : Act U Unit) fun _ => 0 :=
  fun _ henv w hs => henv.release d h w hs

theorem releaseAll_conserves (hs : List Handle) :
    Conserves O d ↑hs (releaseAll hs : Act U Unit) fun _ => 0 := by
  induction hs generalizing d with
  | nil => exact .pure rfl
  | cons h hs ih =>
    apply Conserves.bind ↑hs ((release_conserves h).onFault ih) (coe_cons h hs)
    intro _
    exact ih.of_eq (zero_add _).symm fun _ => rfl

theorem holding_conserves {act : Act U α} (units : List Handle) (hact : Conserves O d H act K) :
    Conserves O d H (holding units act) K :=
  hact.onFault (releaseAll_conserves units)

theorem lending_conserves {act : Act U α} (units : List Handle) (hact : Conserves O d H act K) :
    Conserves O d (↑units + H) (lending units act) K := by
  apply Conserves.bind ↑units (holding_conserves units hact) (add_comm _ _)
  intro a
  apply Conserves.bind (K a) (releaseAll_conserves units) (add_comm _ _)
  intro _
  exact .pure (zero_add _)

theorem traced_conserves (e : Log.Event) : Conserves O d 0 (traced e : Act U Unit) fun _ => 0 := by
  apply Conserves.ask .settings
  intro s
  split
  · exact .emit e
  · exact .pure rfl

theorem insert_conserves (p : Payload) :
    Conserves O d ↑p.units (Act.updateHeap (·.insert p) : Act U Handle) fun h => {h} := by
  intro env henv w hs
  refine ⟨?_, rfl⟩
  have m : Move O d (↑p.units + 0, w) _ := .insert 0 w p
  rw [add_zero, add_zero] at m
  exact .single m

theorem alloc_conserves (p : Payload) :
    Conserves O d ↑p.units (alloc p : Act U Handle) fun h => {h} := by
  apply Conserves.next (insert_conserves p)
  intro h
  exact .aside (traced_conserves _) fun _ => .pure rfl

theorem allocLeaf_conserves {p : Payload} (hp : p.units = []) :
    Conserves O d 0 (alloc p : Act U Handle) fun h => {h} :=
  (alloc_conserves p).of_eq (by rw [hp]; rfl) fun _ => rfl

theorem acquire_conserves {h : Handle} {K : Handle → Multiset Handle} (hK : K h = {h}) :
    Conserves O d 0 (acquire h : Act U Handle) K := by
  intro env henv w hw
  cases hi : w.heap.increment? h with
  | none =>
    have hr : acquire h env w = .fault (.acquireReleased h) w := by
      simp [acquire, bind_run, updateHeap?, hi, Act.fault]
    rw [hr]
    exact ⟨.adjust 0 0 w, fun _ => by simp⟩
  | some r =>
    obtain ⟨n, heap⟩ := r
    have m : Move O d (0, w) ({h} + 0, { w with heap }) := .increment hi
    rw [add_zero] at m
    have hr : acquire h env w =
        (do traced (.acquired h n); pure h : Act U Handle) env { w with heap } := by
      simp [acquire, bind_run, updateHeap?, hi]
    rw [hr]
    refine .step m rfl hw fun ready => ?_
    exact Conserves.aside (traced_conserves _) (fun _ => .pure hK.symm) env henv _ ready

theorem acquireBehind_conserves (made hs : List Handle) :
    Conserves O d ↑made (acquireBehind made hs : Act U (List Handle)) fun hs => ↑hs := by
  induction hs generalizing made with
  | nil => exact .pure rfl
  | cons h hs ih =>
    refine .bind ↑made (holding_conserves made (acquire_conserves (K := fun k => {k}) rfl))
      (zero_add _).symm fun k => ?_
    refine (ih (made ++ [k])).of_eq ?_ fun _ => rfl
    rw [coe_append, Multiset.coe_singleton, add_comm]

theorem acquireAll_conserves (hs : List Handle) :
    Conserves O d 0 (acquireAll hs : Act U (List Handle)) fun hs => ↑hs :=
  acquireBehind_conserves [] hs

theorem disposeState_conserves (t : Descriptor) (s : NativeState) :
    Conserves O d ↑s.units (disposeState t s : Act U Unit) fun _ => 0 := by
  unfold disposeState
  cases t.dealloc with
  | drop => exact .aside (.emit _) fun _ => releaseAll_conserves s.units
  | user code => exact fun _ henv w hs => henv.hooks.destroy d code s.units w hs

theorem dispose_conserves (p : Payload) :
    Conserves O d ↑p.units (dispose p : Act U Unit) fun _ => 0 := by
  unfold dispose
  split
  · exact disposeState_conserves _ _
  · exact releaseAll_conserves p.units

/-- Who has a unit has it on a live object, so giving it back is no double release. -/
theorem releaseNow_conserves (h : Handle) :
    Conserves O d {h} (releaseNow h : Act U Unit) fun _ => 0 := by
  intro env henv w hw
  cases hd : w.heap.decrement? h with
  | none =>
    have hr : releaseNow h env w = .fault (.doubleRelease h) w := by
      simp [releaseNow, bind_run, updateHeap?, hd, Act.fault]
    rw [hr]
    refine ⟨.adjust _ 0 w, fun hstrict => ?_⟩
    obtain ⟨F, hF⟩ := hw hstrict
    obtain ⟨e, he⟩ := (Heap.isAlive_iff _ _).1 (hF.isAlive (h := h) (by simp))
    simp [Heap.decrement?, he] at hd
  | some r =>
    obtain ⟨r, heap⟩ := r
    have m : Move O d ({h} + 0, w) (r.units + 0, { w with heap }) := .decrement hd
    rw [add_zero, add_zero] at m
    refine .step m rfl hw fun ready => ?_
    cases r with
    | alive n =>
      have hr : releaseNow h env w = traced (.released h n) env { w with heap } := by
        simp [releaseNow, bind_run, updateHeap?, hd]
      rw [hr]
      exact traced_conserves _ env henv _ ready
    | dead p =>
      have hr : releaseNow h env w =
          (do traced (.deallocated h p.typeName); dispose p : Act U Unit) env { w with heap } := by
        simp [releaseNow, bind_run, updateHeap?, hd]
      rw [hr]
      exact Conserves.aside (traced_conserves _) (fun _ => dispose_conserves p) env henv _ ready

theorem isSet_reads : (Indicator.isSet : Act U Bool).Reads := fun _ => .inr ⟨_, fun _ => rfl⟩

theorem holds_reads (kind : ExceptionKind) : (Indicator.holds kind : Act U Bool).Reads :=
  fun _ => .inr ⟨_, fun _ => rfl⟩

theorem swap_conserves (e : Option Raised) :
    Conserves O d 0 (Indicator.swap e : Act U (Option Raised)) fun _ => 0 :=
  .of_heap_eq fun _ _ _ => ⟨_, _, rfl, rfl, rfl, rfl, fun _ => id⟩

theorem indicatorRaise_conserves (e : Raised) :
    Conserves O d 0 (Indicator.raise e : Act U Unit) fun _ => 0 := by
  refine .aside (.emit _) fun _ => .aside (swap_conserves _) fun previous => ?_
  cases previous with
  | none => exact .pure rfl
  | some previous =>
    apply Conserves.ask .settings
    intro s
    split
    · exact .fault (by simp)
    · exact .emit _

theorem putBack_conserves (e : Option Raised) :
    Conserves O d 0 (Indicator.putBack e : Act U Unit) fun _ => 0 := by
  cases e with
  | none => exact .pure rfl
  | some e => exact indicatorRaise_conserves e

theorem clear_conserves : Conserves O d 0 (Indicator.clear : Act U Unit) fun _ => 0 := by
  apply Conserves.aside (swap_conserves none)
  intro e
  cases e with
  | none => exact .pure rfl
  | some e => exact .emit _

theorem raise_conserves (kind : ExceptionKind) (message : String) :
    Conserves O d 0 (raise kind message : Act U Unit) fun _ => 0 :=
  indicatorRaise_conserves _

theorem raiseType_conserves (message : String) :
    Conserves O d 0 (raiseType message : Act U Unit) fun _ => 0 :=
  raise_conserves _ _

theorem reflect_conserves (f : Failure) :
    Conserves O d 0 (f.reflect : Act U Unit) fun _ => 0 := by
  unfold Failure.reflect
  cases f.kind.exception? with
  | some kind => exact .aside clear_conserves fun _ => raise_conserves _ _
  | none =>
    apply Conserves.ask isSet_reads
    intro b
    split
    · exact .pure rfl
    · exact raise_conserves _ _

theorem guarded_conserves (r : Except Failure Handle) :
    Conserves O d (unitsOk (fun h => {h}) r) (guarded r : Act U (Option Handle))
      fun o => ↑o.toList := by
  cases r with
  | ok h => exact .pure rfl
  | error f => exact .aside (reflect_conserves f) fun _ => .pure rfl

theorem askPayload_reads (h : Handle) (f : Payload → α) :
    (askPayload h f : Act U (Option α)).Reads :=
  .heap _

theorem typeNameOf_reads (h : Handle) : (typeNameOf h : Act U String).Reads := .heap _

theorem isNoneObject_reads (h : Handle) : (isNoneObject h : Act U Bool).Reads :=
  (askPayload_reads h _).bind fun _ => .pure _

theorem asInt_reads (h : Handle) : (asInt h : Act U (Option Int64)).Reads :=
  (askPayload_reads h _).bind fun _ => .pure _

theorem asFloat_reads (h : Handle) : (asFloat h : Act U (Option Binary64)).Reads :=
  (askPayload_reads h _).bind fun _ => .pure _

theorem asText_reads (h : Handle) : (asText h : Act U (Option String)).Reads :=
  (askPayload_reads h _).bind fun _ => .pure _

theorem isTruthy_reads (h : Handle) : (isTruthy h : Act U Bool).Reads :=
  (askPayload_reads h _).bind fun _ => .pure _

theorem lengthOf_reads (h : Handle) : (lengthOf h : Act U (Option Nat)).Reads :=
  (askPayload_reads h _).bind fun _ => .pure _

theorem repr_reads (h : Handle) : (repr h : Act U String).Reads :=
  (Reads.heap _).bind fun _ => .ofOption _

theorem keyOf_reads (h : Handle) : (keyOf h : Act U (Option Key)).Reads :=
  (Reads.heap _).bind fun _ => .ofOption _

theorem uniqueItems_conserves (items : List Handle) (keys : List Key) (kept : List Handle) :
    Conserves O d ↑(items ++ kept) (uniqueItems items keys kept : Act U (Option (List Handle)))
      (unitsIf fun hs => ↑hs) := by
  induction items generalizing keys kept with
  | nil => exact .pure rfl
  | cons h hs ih =>
    apply Conserves.ask (keyOf_reads h)
    intro key
    cases key with
    | none =>
      refine .aside (holding_conserves _ ?_) fun _ => ?_
      · exact .ask (typeNameOf_reads h) fun _ => raiseType_conserves _
      · exact .next (releaseAll_conserves _) fun _ => .pure rfl
    | some k =>
      change Conserves O d _ (if keys.contains k then _ else _) _
      split
      · refine .bind ↑(hs ++ kept) (holding_conserves _ (release_conserves h)) (coe_cons h _) ?_
        exact fun _ => (ih keys kept).of_eq (zero_add _).symm fun _ => rfl
      · refine (ih (keys ++ [k]) (kept ++ [h])).of_eq ?_ fun _ => rfl
        simp only [List.cons_append, coe_cons, coe_append, Multiset.coe_singleton]
        abel

theorem newSet_conserves (items : List Handle) :
    Conserves O d ↑items (newSet items : Act U (Option Handle)) fun o => ↑o.toList := by
  have hunique := uniqueItems_conserves (U := U) (O := O) (d := d) items [] []
  rw [List.append_nil] at hunique
  apply Conserves.next hunique
  intro kept
  cases kept with
  | none => exact .pure rfl
  | some kept => exact .map (alloc_conserves (.set kept))

theorem newTuple_conserves (items : List Handle) :
    Conserves O d ↑items (newTuple items : Act U Handle) fun h => {h} :=
  (alloc_conserves _).of_eq (by simp [Payload.units]) fun _ => rfl

theorem appendItem_conserves (list item : Handle) :
    Conserves O d {item} (appendItem list item : Act U Bool) fun _ => 0 := by
  apply Conserves.ofHeap
  intro p env w henv hw found
  split
  · rename_i items
    refine .change found (.append items item) ?_ henv hw (.pure rfl)
    simp only [Payload.units, coe_append, Multiset.coe_singleton]
    abel
  · exact .of_act (.next (release_conserves item) fun _ => .pure rfl) henv hw

theorem tupleItems_conserves (h : Handle) :
    Conserves O d 0 (tupleItems h : Act U (Option (List Handle))) (unitsIf fun hs => ↑hs) := by
  apply Conserves.ask (.heap _)
  intro p
  split
  · exact .map (acquireAll_conserves _)
  · exact .pure rfl

theorem listItems_conserves (h : Handle) :
    Conserves O d 0 (listItems h : Act U (Option (List Handle))) (unitsIf fun hs => ↑hs) := by
  apply Conserves.ask (.heap _)
  intro p
  split
  · exact .map (acquireAll_conserves _)
  · exact .pure rfl

theorem exhausted_lawful : (Hooks.exhausted : Hooks U).Lawful O :=
  ⟨fun _ _ _ _ _ => trivial, fun _ _ _ _ _ => trivial, fun _ _ _ _ _ => trivial,
    fun _ _ _ _ _ => trivial, fun _ _ _ _ _ _ => trivial⟩

/-- However deep user code nests, the environment it is tied into is lawful. -/
theorem tie_lawful {observe : Log.Event → U → U} {user : Env U → Hooks U}
    (hunits : ∀ e c, O.units (observe e c) = O.units c)
    (hscope : ∀ e c, O.scope (observe e c) = O.scope c)
    (hsound : ∀ e c, O.sound c → O.sound (observe e c))
    (huser : ∀ env, env.Lawful O → (user env).Lawful O) (n : Nat) :
    (Env.tie observe user n).Lawful O := by
  induction n with
  | zero => exact ⟨fun _ _ _ _ => trivial, hunits, hscope, hsound, exhausted_lawful⟩
  | succ n ih =>
    refine ⟨fun d h w hw => releaseNow_conserves h _ ih w hw, hunits, hscope, hsound, ?_⟩
    exact ⟨(huser _ ih).call, (huser _ ih).slot, (huser _ ih).measure, (huser _ ih).destroy,
      (huser _ ih).toPeer⟩

end Causeway
