import Causeway.Proofs.Stakes
import Causeway.Proofs.ValueTrees
/-!
# Decoding value trees

What inward conversion makes of a value tree, by recursion on the native type and with no heap in
sight: a value in which trees stand for objects, or the error of the first part that cannot be read.
-/
set_option autoImplicit false

namespace Causeway

namespace ValueTree

def isNull : ValueTree → Bool
  | none => true
  | _ => false

def asInt? : ValueTree → Option Int64
  | int i => some i
  | bool b => some (if b then 1 else 0)
  | _ => Option.none

def asFloat? : ValueTree → Option Binary64
  | float x => some x
  | int i => some (.ofInt i.toInt)
  | _ => Option.none

def asText? : ValueTree → Option String
  | str s => some s
  | _ => Option.none

def isTruthy : ValueTree → Bool
  | none => false
  | bool b => b
  | int i => i != 0
  | float x => !x.isZero
  | str s => !s.isEmpty
  | list ts | tuple ts | set ts => !ts.isEmpty

def elements? : ValueTree → Option (List ValueTree)
  | str s => some (s.toList.map fun c => str (String.singleton c))
  | list ts | tuple ts | set ts => some ts
  | _ => Option.none

def toInt (t : ValueTree) : Except Raised Int64 :=
  match t.asInt? with
  | some i => .ok i
  | Option.none => .error ⟨.typeError, s!"an integer is required (got type {t.typeName})"⟩

def noTuple (arity : Nat) : ValueTree → Raised
  | tuple ts => ⟨.typeError, s!"expected a tuple of length {arity}, got {ts.length}"⟩
  | t => ⟨.typeError, s!"expected tuple, not {t.typeName}"⟩

end ValueTree

namespace NativeType

/-- Values with trees in place of objects. No plain data is callable. -/
def Decoded : NativeType → Type
  | i64 => Int64
  | i32 => Int32
  | usize => UInt64
  | f64 => Binary64
  | bool => Bool
  | text => String
  | unit => Unit
  | object => ValueTree
  | option t => Option t.Decoded
  | pair a b => a.Decoded × b.Decoded
  | triple a b c => a.Decoded × b.Decoded × c.Decoded
  | vec t => List t.Decoded
  | view _ => ValueTree
  | callable => Empty

/-- Values of elements from the one at an index on, or the index of the first that has none. -/
def decodeFrom {δ : Type} (f : ValueTree → Except Raised δ) :
    (index : Nat) → List ValueTree → Except Nat (List δ)
  | _, [] => .ok []
  | i, t :: ts =>
    match f t with
    | .error _ => .error i
    | .ok d => (decodeFrom f (i + 1) ts).map (d :: ·)

def badElement (index : Nat) : Raised :=
  ⟨.typeError, s!"bad element in iterable (index {index})"⟩

def notIterable (t : ValueTree) : Raised :=
  ⟨.typeError, s!"expected an iterable, not {t.typeName}"⟩

def decode : (t : NativeType) → ValueTree → Except Raised t.Decoded
  | i64, τ => τ.toInt
  | i32, τ => do
    let v ← τ.toInt
    if Int32.minValue.toInt ≤ v.toInt ∧ v.toInt ≤ Int32.maxValue.toInt then
      .ok (Int32.ofInt v.toInt)
    else .error ⟨.overflowError, "int too large to convert to i32"⟩
  | usize, τ => do
    let v ← τ.toInt
    if 0 ≤ v.toInt then .ok (UInt64.ofNat v.toInt.toNat)
    else .error ⟨.overflowError, "can't convert negative int to unsigned"⟩
  | f64, τ =>
    match τ.asFloat? with
    | some x => .ok x
    | none => .error ⟨.typeError, s!"must be real number, not {τ.typeName}"⟩
  | bool, τ => .ok τ.isTruthy
  | text, τ =>
    match τ.asText? with
    | some s => .ok s
    | none => .error ⟨.typeError, s!"expected str, not {τ.typeName}"⟩
  | unit, _ => .ok ()
  | object, τ => .ok τ
  | option t, τ => if τ.isNull then .ok none else (t.decode τ).map some
  | pair a b, τ =>
    match τ with
    | .tuple [x, y] => do
      let x ← a.decode x
      let y ← b.decode y
      .ok (x, y)
    | τ => .error (τ.noTuple 2)
  | triple a b c, τ =>
    match τ with
    | .tuple [x, y, z] => do
      let x ← a.decode x
      let y ← b.decode y
      let z ← c.decode z
      .ok (x, y, z)
    | τ => .error (τ.noTuple 3)
  | vec t, τ =>
    match τ.elements? with
    | some ts => (decodeFrom t.decode 0 ts).mapError badElement
    | none => .error (notIterable τ)
  | view _, τ => if τ.elements?.isSome then .ok τ else .error (notIterable τ)
  | callable, τ => .error ⟨.typeError, s!"expected a callable object, not {τ.typeName}"⟩

/-- What a vector is refused for says nothing of what is wrong with the element. -/
theorem decode_vec_error {t : NativeType} {τ : ValueTree} {e : Raised}
    (h : (vec t).decode τ = .error e) : e = notIterable τ ∨ ∃ i, e = badElement i := by
  rw [decode] at h
  cases hts : τ.elements? with
  | none =>
    rw [hts] at h
    exact .inl (Except.error.inj h).symm
  | some ts =>
    rw [hts] at h
    change (decodeFrom t.decode 0 ts).mapError badElement =
      (.error e : Except Raised (List t.Decoded)) at h
    cases hd : decodeFrom t.decode 0 ts with
    | ok ds =>
      rw [hd] at h
      cases h
    | error i =>
      rw [hd] at h
      exact .inr ⟨i, (Except.error.inj h).symm⟩

theorem toInt_error {τ : ValueTree} {e : Raised} (h : τ.toInt = .error e) :
    e.kind = .typeError := by
  unfold ValueTree.toInt at h
  cases hint : τ.asInt? with
  | some i =>
    rw [hint] at h
    cases h
  | none =>
    rw [hint] at h
    cases h
    rfl

theorem bind_eq_error {α β : Type} {x : Except Raised α} {f : α → Except Raised β} {e : Raised}
    (h : x.bind f = .error e) : x = .error e ∨ ∃ v, f v = .error e := by
  cases x with
  | error e' => exact .inl (congrArg Except.error (Except.error.inj h))
  | ok v => exact .inr ⟨v, h⟩

theorem decode_error_kind {t : NativeType} {τ : ValueTree} {e : Raised}
    (h : t.decode τ = .error e) : e.kind = .typeError ∨ e.kind = .overflowError := by
  have hnoTuple (arity : Nat) (τ : ValueTree) : (τ.noTuple arity).kind = .typeError := by
    cases τ <;> rfl
  induction t generalizing τ e with
  | i64 => exact .inl (toInt_error h)
  | i32 | usize =>
    obtain h | ⟨v, h⟩ := bind_eq_error h
    · exact .inl (toInt_error h)
    · split at h
      · cases h
      · cases h
        exact .inr rfl
  | f64 | text =>
    rw [decode] at h
    split at h
    · cases h
    · cases h
      exact .inl rfl
  | bool | unit | object => cases h
  | option t ih =>
    rw [decode] at h
    split at h
    · cases h
    · cases hd : t.decode τ with
      | error e' =>
        rw [hd] at h
        cases h
        exact ih hd
      | ok v =>
        rw [hd] at h
        cases h
  | pair a b iha ihb =>
    unfold decode at h
    split at h
    · obtain h | ⟨v, h⟩ := bind_eq_error h
      · exact iha h
      · obtain h | ⟨v', h⟩ := bind_eq_error h
        · exact ihb h
        · cases h
    · cases h
      exact .inl (hnoTuple 2 _)
  | triple a b c iha ihb ihc =>
    unfold decode at h
    split at h
    · obtain h | ⟨v, h⟩ := bind_eq_error h
      · exact iha h
      · obtain h | ⟨v', h⟩ := bind_eq_error h
        · exact ihb h
        · obtain h | ⟨v'', h⟩ := bind_eq_error h
          · exact ihc h
          · cases h
    · cases h
      exact .inl (hnoTuple 3 _)
  | vec t ih =>
    obtain rfl | ⟨i, rfl⟩ := decode_vec_error h
    · exact .inl rfl
    · exact .inl rfl
  | view t ih =>
    rw [decode] at h
    split at h
    · cases h
    · cases h
      exact .inl rfl
  | callable =>
    cases h
    exact .inl rfl

/-- A value and what it was decoded to, where `shows` tells which trees objects show. -/
def Images (shows : Handle → ValueTree → Prop) : (t : NativeType) → t.Value → t.Decoded → Prop
  | i64, v, d => v = d
  | i32, v, d => v = d
  | usize, v, d => v = d
  | f64, v, d => v = d
  | bool, v, d => v = d
  | text, v, d => v = d
  | unit, _, _ => True
  | object, h, τ => shows h τ
  | option _, none, none => True
  | option t, some v, some d => t.Images shows v d
  | option _, _, _ => False
  | pair a b, (x, y), (d, e) => a.Images shows x d ∧ b.Images shows y e
  | triple a b c, (x, y, z), (d, e, f) =>
    a.Images shows x d ∧ b.Images shows y e ∧ c.Images shows z f
  | vec t, vs, ds => List.Forall₂ (t.Images shows) vs ds
  | view _, h, τ => shows h τ
  | callable, _, _ => False

theorem Images.mono {S S' : Handle → ValueTree → Prop} : (t : NativeType) → (v : t.Value) →
    (d : t.Decoded) → t.Images S v d → (∀ h ∈ t.units v, ∀ τ, S h τ → S' h τ) → t.Images S' v d
  | i64, _, _, h, _ | i32, _, _, h, _ | usize, _, _, h, _ | f64, _, _, h, _ | bool, _, _, h, _
  | text, _, _, h, _ | unit, _, _, h, _ => h
  | object, _, _, h, hS => hS _ List.mem_cons_self _ h
  | view _, _, _, h, hS => hS _ List.mem_cons_self _ h
  | option _, none, none, _, _ => trivial
  | option t, some v, some d, h, hS => Images.mono t v d h hS
  | pair a b, (x, y), (d, e), h, hS =>
    ⟨Images.mono a x d h.1 fun k hk => hS k (List.mem_append_left _ hk),
      Images.mono b y e h.2 fun k hk => hS k (List.mem_append_right _ hk)⟩
  | triple a b c, (x, y, z), (d, e, f), h, hS =>
    ⟨Images.mono a x d h.1 fun k hk =>
        hS k (List.mem_append_left _ (List.mem_append_left _ hk)),
      Images.mono b y e h.2.1 fun k hk =>
        hS k (List.mem_append_left _ (List.mem_append_right _ hk)),
      Images.mono c z f h.2.2 fun k hk => hS k (List.mem_append_right _ hk)⟩
  | vec t, vs, ds, h, hS => by
    change List.Forall₂ (t.Images S) vs ds at h
    change List.Forall₂ (t.Images S') vs ds
    induction h with
    | nil => exact .nil
    | @cons v d vs ds hvd _ ih =>
      refine .cons (Images.mono t v d hvd fun k hk => hS k ?_) (ih fun k hk => hS k ?_)
      · exact List.mem_append_left _ hk
      · exact List.mem_append_right _ hk

end NativeType

end Causeway
