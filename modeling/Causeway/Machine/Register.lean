import Causeway.Machine.Client
/-!
# Registers

Looking at what registers hold, filling them, and giving up what they held.
-/
set_option autoImplicit false

namespace Causeway.Machine

variable {α : Type}

/-- A conversion between hooks; `arguments` is what the hooks see. -/
def hooked (id : CodeId) (arguments : List Handle) (units : α → List Handle)
    (convert : Run (Option α)) : Run (Option α) := do
  match ← nextHook id with
  | none => convert
  | some hook =>
    runBlock hook.before arguments
    match hook.mode with
    | .refuse => pure none
    | mode =>
      let out ← convert
      let owned := out.toList.flatMap units
      holding owned (runBlock hook.after arguments)
      if mode = .fail then
        releaseAll owned
        pure none
      else pure out

def convertIn (code : Option CodeId) (t : NativeType) (h : Handle) : Run (Option t.Value) :=
  match code with
  | none => fromPeer t h
  | some id => hooked id [h] t.units (fromPeer t h)

def viewObject (quiet : Bool) (h : Handle) : Run ObjectView := do
  let typeName ← typeNameOf h
  let refcount ← Act.heap (·.refcount h)
  let text ← if quiet then pure none else some <$> repr h
  pure { handle := h, typeName, refcount, text }

def showValue : (t : NativeType) → t.Value → Run Shown
  | .i64, v => pure (.integer v.toInt)
  | .i32, v => pure (.integer v.toInt)
  | .usize, v => pure (.integer v.toNat)
  | .f64, v => pure (.float v)
  | .bool, v => pure (.bool v)
  | .text, v => pure (.text v)
  | .unit, _ => pure .null
  | .object, h => .object <$> viewObject false h
  | .option _, none => pure .null
  | .option t, some v => .some <$> showValue t v
  | .pair a b, (x, y) => do pure (.list [← showValue a x, ← showValue b y])
  | .triple a b c, (x, y, z) => do
    pure (.list [← showValue a x, ← showValue b y, ← showValue c z])
  | .vec t, vs => do pure (.list (← List.mapM (fun v => showValue t v) vs))
  | .view t, h => do
    match ← View.collectSized (builtinIntake t) h with
    | .error f => pure (.brokenView f)
    | .ok vs => do
      pure (.view (← lending (vs.flatMap t.units) (vs.mapM fun v => showValue t v)))
  | .callable, h => .callable <$> viewObject false h

def intakeOf (t : NativeType) (convert deleter : Option CodeId) : Intake Client t.Value where
  convert := convertIn convert t
  units := t.units
  deleter := deleter.map fun id v =>
    lending (t.units v) do
      note (.deleted (← showValue t v))
      runBlock id []
  width := t.width

def HeldView.intake (v : HeldView) : Intake Client v.elem.Value :=
  intakeOf v.elem v.convert v.deleter

def HeldCursor.intake (c : HeldCursor) : Intake Client c.elem.Value :=
  intakeOf c.elem c.convert c.deleter

/-- Gives up what a register held. What is in use stays until it is not. -/
def Holding.drop (x : Holding) : Run Unit := do
  match x with
  | .cursor c => c.cursor.drop c.intake
  | x =>
    match x.share? with
    | none => releaseAll x.units
    | some n =>
      if (← Act.client).inUse.contains n then
        Act.modifyClient fun c => { c with orphans := (n, x.units) :: c.orphans }
      else releaseAll x.units

def endUse (n : Nat) : Run Unit := do
  Act.modifyClient fun c => { c with inUse := c.inUse.erase n }
  let c ← Act.client
  if c.inUse.contains n then pure ()
  else
    Act.modifyClient fun c => { c with orphans := c.orphans.filter fun o => o.1 != n }
    releaseAll ((c.orphans.lookup n).getD [])

def whileUsing (share : Nat) (act : Run α) : Run α := do
  Act.modifyClient fun c => { c with inUse := share :: c.inUse }
  let a ← act.onFault (endUse share)
  endUse share
  pure a

def newShare : Run Nat := do
  let n := (← Act.client).shares
  Act.modifyClient fun c => { c with shares := n + 1 }
  pure n

def register? (name : String) : Run (Option Holding) := do
  pure ((← Act.client).registers.lookup name)

def emptyRegister (name : String) : Run Unit :=
  Act.modifyClient fun c => { c with registers := c.registers.erase name }

def store (name : String) (x : Holding) : Run Unit := do
  let old ← register? name
  Act.modifyClient fun c => { c with registers := c.registers.put name x }
  match old with
  | some y => y.drop
  | none => pure ()

def keep (name : Option String) (x : Holding) : Run Unit :=
  match name with
  | some name => store name x
  | none => x.drop

/-- The object a name means, which is an argument of the present script or a register. -/
def objectNamed (arguments : List Handle) (name : String) : Run (Option Handle) := do
  match name.toList with
  | '$' :: digits =>
    match (String.ofList digits).toNat? with
    | some i => pure arguments[i]?
    | none => pure none
  | _ => pure ((← register? name).bind Holding.object?)

def takeOwned (name : String) : Run (Option Handle) := do
  match ← register? name with
  | some (.owned h) =>
    emptyRegister name
    pure (some h)
  | _ => pure none

def takeFailure (name : String) : Run (Option Failure) := do
  match ← register? name with
  | some (.failure f) =>
    emptyRegister name
    pure (some f)
  | _ => pure none

end Causeway.Machine
