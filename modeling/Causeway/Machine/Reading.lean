import Causeway.Machine.Register
/-!
# Written values

From what is written to new peer objects and to native values.
-/
set_option autoImplicit false

namespace Causeway.Machine

variable {α : Type}

mutual

/-- A new object for a written value. None if a part of it cannot be made. -/
def build (arguments : List Handle) : Term → Run (Option Handle)
  | .null => some <$> alloc .none
  | .bool b => some <$> alloc (.bool b)
  | .int i => some <$> alloc (.int (Int64.ofInt i))
  | .float x => some <$> alloc (.float x)
  | .text s => some <$> alloc (.str s)
  | .list items => do
    match ← buildAll arguments [] items with
    | some hs => some <$> alloc (.list hs)
    | none => pure none
  | .tuple items => do
    match ← buildAll arguments [] items with
    | some hs => some <$> newTuple hs
    | none => pure none
  | .set items => do
    match ← buildAll arguments [] items with
    | some hs => newSet hs
    | none => pure none
  | .ref name => do
    match ← objectNamed arguments name with
    | some h => some <$> acquire h
    | none => some <$> alloc .none
  | .iter v => do
    match ← build arguments v with
    | none => pure none
    | some h =>
      let it ← holding [h] (getIter h)
      holding it.toList (release h)
      pure it
  | .some v => build arguments v

/-- New objects for written values, from left to right, behind those `built` already; all or none.
-/
def buildAll (arguments built : List Handle) : List Term → Run (Option (List Handle))
  | [] => pure (some built)
  | v :: vs => do
    match ← holding built (build arguments v) with
    | some h => buildAll arguments (built ++ [h]) vs
    | none =>
      releaseAll built
      pure none

end

def Term.integer? : Term → Option Int
  | .int i => Option.some i
  | .text s => s.toInt?
  | _ => Option.none

def floatOfText? (s : String) : Option Binary64 :=
  match s.toList with
  | '0' :: 'x' :: ds =>
    if ds.length = 16 then
      (ds.foldlM (fun n c => (hexDigit? c).map (16 * n + ·)) 0).map fun n => ⟨UInt64.ofNat n⟩
    else none
  | _ => none
where
  hexDigit? (c : Char) : Option Nat :=
    if '0' ≤ c ∧ c ≤ '9' then some (c.toNat - 48)
    else if 'a' ≤ c ∧ c ≤ 'f' then some (c.toNat - 87)
    else if 'A' ≤ c ∧ c ≤ 'F' then some (c.toNat - 55)
    else none

def readAll (units : α → List Handle) (read : Term → Run (Option α)) (done : List α) :
    List Term → Run (Option (List α))
  | [] => pure (some done)
  | v :: vs => do
    match ← holding (done.flatMap units) (read v) with
    | some a => readAll units read (done ++ [a]) vs
    | none =>
      releaseAll (done.flatMap units)
      pure none

/-- The native value that a term writes. None if it writes no value of the type. -/
def readValue (arguments : List Handle) : (t : NativeType) → Term → Run (Option t.Value)
  | .i64, v => pure (v.integer?.map Int64.ofInt)
  | .i32, v => pure (v.integer?.map Int32.ofInt)
  | .usize, v => pure (v.integer?.map fun i => UInt64.ofNat i.toNat)
  | .f64, v =>
    match v with
    | .float x => pure (some x)
    | .text s => pure (floatOfText? s)
    | _ => pure none
  | .bool, v =>
    match v with
    | .bool b => pure (some b)
    | _ => pure none
  | .text, v =>
    match v with
    | .text s => pure (some s)
    | _ => pure none
  | .unit, v =>
    match v with
    | .null => pure (some ())
    | _ => pure none
  | .object, v => build arguments v
  | .option t, v =>
    match v with
    | .null => pure (some none)
    | .some v => do pure ((← readValue arguments t v).map some)
    | _ => pure none
  | .pair a b, v =>
    match v with
    | .list [x, y] => do
      match ← readValue arguments a x with
      | none => pure none
      | some x =>
        match ← holding (a.units x) (readValue arguments b y) with
        | some y => pure (some (x, y))
        | none =>
          releaseAll (a.units x)
          pure none
    | _ => pure none
  | .triple a b c, v =>
    match v with
    | .list [x, y, z] => do
      match ← readValue arguments a x with
      | none => pure none
      | some x =>
        match ← holding (a.units x) (readValue arguments b y) with
        | none =>
          releaseAll (a.units x)
          pure none
        | some y =>
          match ← holding (a.units x ++ b.units y) (readValue arguments c z) with
          | some z => pure (some (x, y, z))
          | none =>
            releaseAll (a.units x ++ b.units y)
            pure none
    | _ => pure none
  | .vec t, v =>
    match v with
    | .list items => readAll t.units (fun v => readValue arguments t v) [] items
    | _ => pure none
  | .view _, _ | .callable, _ => pure none

end Causeway.Machine
