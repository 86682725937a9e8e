import Causeway.Proofs.PassConservation
import Causeway.Callable
/-!
# Conservation by conversions from the peer and by calls

A conversion borrows its object and yields a value with units of its own. A call keeps its argument
container to itself and hands over nothing but the converted result.
-/
set_option autoImplicit false

namespace Causeway

open Act

variable {U α : Type} {O : Ownership U} {d : Discipline} {H : Multiset Handle}

theorem expectTuple_conserves (h : Handle) (arity : Nat) :
    Conserves O d 0 (expectTuple h arity : Act U (Option (List Handle)))
      (unitsIf fun hs => ↑hs) := by
  apply Conserves.next (tupleItems_conserves h)
  intro items
  cases items with
  | none =>
    exact .ask (typeNameOf_reads h) fun _ => .aside (raiseType_conserves _) fun _ => .pure rfl
  | some items =>
    dsimp only
    split
    · exact .pure rfl
    · apply Conserves.aside (holding_conserves _ (raiseType_conserves _))
      intro _
      exact .next (releaseAll_conserves items) fun _ => .pure rfl

theorem reflected_conserves (units : α → Multiset Handle) (r : Except Failure α) :
    Conserves O d (unitsOk units r) (reflected r : Act U (Option α)) (unitsIf units) := by
  cases r with
  | ok a => exact .pure rfl
  | error f => exact .aside (reflect_conserves f) fun _ => .pure rfl

theorem makeCallable_conserves (h : Handle) :
    Conserves O d 0 (makeCallable h : Act U (Except Failure Handle)) (unitsOk fun h => {h}) := by
  apply Conserves.ask (isCallable_reads h)
  intro b
  split
  · exact .map (acquire_conserves rfl)
  · exact .ask (typeNameOf_reads h) fun _ => .pure rfl

theorem intFromPeer_conserves (h : Handle) :
    Conserves O d 0 (intFromPeer h : Act U (Option Int64)) fun _ => 0 := by
  apply Conserves.ask (asInt_reads h)
  intro v
  cases v with
  | some v => exact .pure rfl
  | none =>
    exact .ask (typeNameOf_reads h) fun _ => .aside (raiseType_conserves _) fun _ => .pure rfl

theorem collectObject_conserves {p : Intake U α} (hp : p.Lawful O) (h : Handle) :
    Conserves O d 0 (collectObject p h) (unitsOk fun vs => ↑(vs.flatMap p.units)) := by
  apply Conserves.next (View.make_conserves h)
  intro r
  cases r with
  | error f => exact .pure rfl
  | ok iterable =>
    refine .bind {iterable} (holding_conserves _ (View.collectSized_conserves hp iterable))
      (zero_add _).symm fun out => ?_
    exact .bind _ (release_conserves iterable) (add_comm _ _) fun _ => .pure (zero_add _)

theorem Intake.lawful_of_convert {convert : Handle → Act U (Option α)} {units : α → List Handle}
    (width : Nat) (hconvert : ∀ d h, Conserves O d 0 (convert h) (unitsIf fun v => ↑(units v))) :
    Intake.Lawful O ⟨convert, units, none, width⟩ :=
  ⟨hconvert, fun _ v => releaseAll_conserves (units v)⟩

theorem refuse_conserves (units : α → Multiset Handle) (hs : List Handle) :
    Conserves O d ↑hs (do releaseAll hs; pure none : Act U (Option α)) (unitsIf units) :=
  .next (releaseAll_conserves hs) fun _ => .pure rfl

/-- A component that fails gives the components before it back, and the items of the tuple. -/
theorem fromPeer_conserves (t : NativeType) (h : Handle) :
    Conserves O d 0 (fromPeer t h : Act U (Option t.Value)) (unitsIf fun v => ↑(t.units v)) := by
  induction t generalizing h d with
  | i64 => exact (intFromPeer_conserves h).of_eq rfl fun o => by cases o <;> rfl
  | i32 =>
    apply Conserves.next (intFromPeer_conserves h)
    intro v
    cases v with
    | none => exact .pure rfl
    | some v =>
      dsimp only
      split
      · exact .pure rfl
      · exact .aside (raise_conserves _ _) fun _ => .pure rfl
  | usize =>
    apply Conserves.next (intFromPeer_conserves h)
    intro v
    cases v with
    | none => exact .pure rfl
    | some v =>
      dsimp only
      split
      · exact .pure rfl
      · exact .aside (raise_conserves _ _) fun _ => .pure rfl
  | f64 =>
    apply Conserves.ask (asFloat_reads h)
    intro x
    cases x with
    | some x => exact .pure rfl
    | none =>
      exact .ask (typeNameOf_reads h) fun _ => .aside (raiseType_conserves _) fun _ => .pure rfl
  | bool => exact .ask (isTruthy_reads h) fun _ => .pure rfl
  | text =>
    apply Conserves.ask (asText_reads h)
    intro s
    cases s with
    | some s => exact .pure rfl
    | none =>
      exact .ask (typeNameOf_reads h) fun _ => .aside (raiseType_conserves _) fun _ => .pure rfl
  | unit =>
    rw [fromPeer]
    exact .pure rfl
  | object => exact .map (acquire_conserves rfl)
  | option t ih =>
    apply Conserves.ask (isNoneObject_reads h)
    intro b
    split
    · exact .pure rfl
    · apply Conserves.next (ih h)
      intro v
      cases v with
      | some v => exact .pure rfl
      | none => exact .pure rfl
  | pair a b iha ihb =>
    apply Conserves.next (expectTuple_conserves h 2)
    intro items
    cases items with
    | none => exact .pure rfl
    | some items =>
      apply Conserves.bind ↑items (holding_conserves _ (iha _)) (zero_add _).symm
      intro x
      cases x with
      | none => exact (refuse_conserves _ items).of_eq (zero_add _).symm fun _ => rfl
      | some x =>
        refine .bind (↑(a.units x) + ↑items) (holding_conserves _ (ihb _))
          (zero_add _).symm fun y => ?_
        cases y with
        | none =>
          refine (refuse_conserves _ (a.units x ++ items)).of_eq ?_ fun _ => rfl
          rw [coe_append, unitsIf, zero_add]
        | some y =>
          refine .bind (↑(a.units x) + ↑(b.units y)) (releaseAll_conserves items) ?_ fun _ => ?_
          · simp only [unitsIf]
            abel
          · refine .pure ?_
            simp only [unitsIf, NativeType.units, coe_append, zero_add]
  | triple a b c iha ihb ihc =>
    apply Conserves.next (expectTuple_conserves h 3)
    intro items
    cases items with
    | none => exact .pure rfl
    | some items =>
      apply Conserves.bind ↑items (holding_conserves _ (iha _)) (zero_add _).symm
      intro x
      cases x with
      | none => exact (refuse_conserves _ items).of_eq (zero_add _).symm fun _ => rfl
      | some x =>
        refine .bind (↑(a.units x) + ↑items) (holding_conserves _ (ihb _))
          (zero_add _).symm fun y => ?_
        cases y with
        | none =>
          refine (refuse_conserves _ (a.units x ++ items)).of_eq ?_ fun _ => rfl
          rw [coe_append, unitsIf, zero_add]
        | some y =>
          refine .bind (↑(b.units y) + ↑(a.units x) + ↑items)
            (holding_conserves _ (ihc _)) ?_ fun z => ?_
          · simp only [unitsIf]
            abel
          cases z with
          | none =>
            refine (refuse_conserves _ (b.units y ++ a.units x ++ items)).of_eq ?_ fun _ => rfl
            rw [coe_append, coe_append, unitsIf, zero_add]
          | some z =>
            refine .bind (↑(a.units x) + ↑(b.units y) + ↑(c.units z)) (releaseAll_conserves items)
              ?_ fun _ => ?_
            · simp only [unitsIf]
              abel
            · refine .pure ?_
              simp only [unitsIf, NativeType.units, coe_append, zero_add]
  | vec t ih =>
    exact .next (collectObject_conserves (Intake.lawful_of_convert t.width fun _ h => ih h) h)
      fun r => reflected_conserves _ r
  | view => exact .next (View.make_conserves h) fun r => reflected_conserves _ r
  | callable => exact .next (makeCallable_conserves h) fun r => reflected_conserves _ r

theorem builtinIntake_lawful (t : NativeType) :
    (builtinIntake t : Intake U t.Value).Lawful O :=
  Intake.lawful_of_convert t.width fun _ h => fromPeer_conserves t h

def Returns.units : Returns U α → α → List Handle
  | .convert _ units => units
  | .discard _ => fun _ => []

def Returns.Lawful (O : Ownership U) : Returns U α → Prop
  | .convert conversion units =>
    ∀ d h, Conserves O d 0 (conversion h) (unitsIf fun v => ↑(units v))
  | .discard _ => True

namespace Callable

theorem marshal_conserves (container : Handle) {arguments : List (Act U (Option Handle))}
    (harguments : ∀ a ∈ arguments, Conserves O d 0 a fun o => ↑o.toList) (index : Nat) :
    Conserves O d 0 (marshal container arguments index) fun _ => 0 := by
  induction arguments generalizing index with
  | nil => exact .pure rfl
  | cons argument rest ih =>
    apply Conserves.next (harguments argument List.mem_cons_self)
    intro out
    apply Conserves.ask isSet_reads
    intro pending
    split
    · apply Conserves.next (setArgument_conserves container index _)
      intro _
      exact ih (fun a ha => harguments a (List.mem_cons_of_mem _ ha)) (index + 1)
    · exact .next (releaseAll_conserves _) fun _ => .pure rfl

theorem finish_conserves {returns : Returns U α} (hreturns : returns.Lawful O) (result : Handle) :
    Conserves O d {result} (finish returns result) (unitsOk fun v => ↑(returns.units v)) := by
  cases returns with
  | discard value => exact .next (release_conserves result) fun _ => .pure rfl
  | convert convert units =>
    apply Conserves.bind {result} (holding_conserves _ (hreturns d result)) (zero_add _).symm
    intro out
    refine .bind ↑(out.toList.flatMap units) (holding_conserves _ (release_conserves result)) ?_
      fun _ => .ask isSet_reads fun pending => ?_
    · cases out <;> simp [unitsIf, add_comm]
    · split
      · exact .pure (by simp [unitsOk, Returns.units])
      · refine .aside clear_conserves fun _ => .aside (.emit _) fun _ => ?_
        exact .bind 0 (releaseAll_conserves _) (by simp) fun _ => .pure rfl

theorem call_conserves (target : Handle) {arguments : List (Act U (Option Handle))}
    (harguments : ∀ a ∈ arguments, Conserves O d 0 a fun o => ↑o.toList) (units : List Handle)
    {returns : Returns U α} (hreturns : returns.Lawful O) :
    Conserves O d ↑units (call target arguments units returns)
      (unitsOk fun v => ↑(returns.units v)) := by
  apply Conserves.ask isSet_reads
  intro pending
  split
  · exact .next (releaseAll_conserves units) fun _ => .pure rfl
  apply Conserves.bind ↑units (newArguments_conserves _) (zero_add _).symm
  intro container
  apply Conserves.aside (holding_conserves _ (marshal_conserves container harguments 0))
  intro stopped
  cases stopped with
  | some position =>
    apply Conserves.bind ↑units (holding_conserves _ (release_conserves container)) rfl
    intro _
    refine .of_eq ?_ (zero_add _).symm fun _ => rfl
    refine .aside clear_conserves fun _ => .aside (.emit _) fun _ => ?_
    exact .next (releaseAll_conserves units) fun _ => .pure rfl
  | none =>
    refine .bind {container} (holding_conserves _ (releaseAll_conserves units)) (add_comm _ _)
      fun _ => ?_
    refine .of_eq ?_ (zero_add _).symm fun _ => rfl
    refine .bind {container} (holding_conserves _ (invoke_conserves target container))
      (zero_add _).symm fun result => ?_
    refine .bind ↑result.toList (holding_conserves _ (release_conserves container))
      (add_comm _ _) fun _ => ?_
    refine .of_eq ?_ (zero_add _).symm fun _ => rfl
    cases result with
    | none => exact .pure rfl
    | some h => exact finish_conserves hreturns h

end Callable

theorem stats_reads : (stats : Act U Stats).Reads := .heap _

theorem audit_conserves : Conserves O d 0 (audit : Act U Nat) fun _ => 0 := by
  apply Conserves.ask stats_reads
  intro s
  split
  · exact .aside (.emit _) fun _ => .pure rfl
  · exact .aside (.emit _) fun _ => .pure rfl

theorem shutDown_conserves : Conserves O d 0 (shutDown : Act U Nat) fun _ => 0 :=
  .aside audit_conserves fun _ => .aside (.emit _) fun _ => .pure rfl

end Causeway
