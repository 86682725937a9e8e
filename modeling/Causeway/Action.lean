import Causeway.Log.Event
/-!
# Actions

An action of the library runs in a world (the peer heap, the error indicator, the settings, and
whatever the library's client keeps) and under an environment that says what user code does when the
library enters it. User code is a function of the whole world, so a statement about an action under
every environment covers every behaviour, re-entrant calls included.

An action may end in a fault. A fault unwinds: `onFault` is how an owner gives back what it holds on
the way out. It may also end unfinished: the budget that bounds recursion and loops was too small.
-/
set_option autoImplicit false

namespace Causeway

open Log (Event)

structure Settings where
  /-- Report every change of a reference count. -/
  traceReferences : Bool := false
  /-- Raising over a pending error is a fault rather than a warning. -/
  strictIndicator : Bool := false
  /-- Ask an iterable for its length before collecting it. -/
  reserveFromHint : Bool := true
deriving DecidableEq, Inhabited

/-- What ends the program: misuse, or a promise of more than there can be room for. -/
inductive Fault where
  | doubleRelease (h : Handle)
  | acquireReleased (h : Handle)
  | noArgumentSlot (container : Handle) (index : Nat)
  | raisedOverPending (previous : Raised)
  /-- Room was asked for that no memory has. -/
  | capacityOverflow
deriving DecidableEq

def Fault.message : Fault → String
  | .doubleRelease h => s!"double release of {h.text}"
  | .acquireReleased h => s!"acquire of released reference {h.text}"
  | .noArgumentSlot c i => s!"set_arg: {c.text} has no argument slot {i}"
  | .raisedOverPending e => s!"error raised while another was pending: {e.text}"
  | .capacityOverflow => "capacity overflow"

structure World (U : Type) where
  heap : Heap
  pending : Option Raised
  settings : Settings
  client : U

inductive Outcome (U α : Type) where
  | done (value : α) (world : World U)
  | fault (cause : Fault) (world : World U)
  | unfinished

def Outcome.answer? {U α : Type} : Outcome U α → Option α
  | .done a _ => some a
  | .fault _ _ | .unfinished => none

theorem Outcome.answer?_eq_some {U α : Type} {o : Outcome U α} {a : α} :
    o.answer? = some a ↔ ∃ w, o = .done a w := by
  cases o <;> simp [answer?]

/-- What user code does at each point where the library enters it. -/
structure Hooks (U : Type) where
  /-- The body of a peer function, given the borrowed arguments. -/
  call : CodeId → List Handle → World U → Outcome U (Option Handle)
  /-- An `iter` or `next` slot, given the borrowed object. -/
  slot : CodeId → Handle → World U → Outcome U (Option Handle)
  measure : CodeId → Handle → World U → Outcome U (Option Nat)
  /-- A dealloc slot; it takes over the units of the state. -/
  destroy : CodeId → List Handle → World U → Outcome U Unit
  /-- An outward converter, given the borrowed value. -/
  toPeer : CodeId → (t : NativeType) → t.Value → World U → Outcome U (Option Handle)

structure Env (U : Type) where
  /-- How often a loop may go round. -/
  budget : Nat
  release : Handle → World U → Outcome U Unit
  /-- How the client takes note of a log event. -/
  observe : Event → U → U
  hooks : Hooks U

def Act (U α : Type) : Type := Env U → World U → Outcome U α

namespace Act

variable {U α β : Type}

@[always_inline, inline] protected def pure (a : α) : Act U α := fun _ w => .done a w

@[always_inline, inline] protected def bind (x : Act U α) (f : α → Act U β) : Act U β :=
  fun env w =>
    match x env w with
    | .done a w' => f a env w'
    | .fault c w' => .fault c w'
    | .unfinished => .unfinished

@[always_inline] instance : Monad (Act U) where
  pure := Act.pure
  bind := Act.bind

theorem pure_run (a : α) (env : Env U) (w : World U) : (pure a : Act U α) env w = .done a w := rfl

theorem bind_run (x : Act U α) (f : α → Act U β) (env : Env U) (w : World U) :
    (x >>= f) env w = match x env w with
      | .done a w' => f a env w'
      | .fault c w' => .fault c w'
      | .unfinished => .unfinished := rfl

theorem bind_eq_done {x : Act U α} {f : α → Act U β} {env : Env U} {w w' : World U} {b : β} :
    (x >>= f) env w = .done b w' ↔ ∃ a w₁, x env w = .done a w₁ ∧ f a env w₁ = .done b w' := by
  rw [bind_run]
  cases x env w with
  | done a w₁ => exact ⟨fun h => ⟨a, w₁, rfl, h⟩, fun ⟨_, _, rfl, h⟩ => h⟩
  | fault c w₁ => exact ⟨nofun, nofun⟩
  | unfinished => exact ⟨nofun, nofun⟩

theorem bind_assoc_run {γ : Type} {x : Act U α} {f : α → Act U β} {g : β → Act U γ} {env : Env U}
    {w : World U} : ((x >>= f) >>= g) env w = (x >>= fun a => f a >>= g) env w := by
  simp only [bind_run]
  cases x env w <;> rfl

def fault (c : Fault) : Act U α := fun _ w => .fault c w

def unfinished : Act U α := fun _ _ => .unfinished

/-- Makes room for `count` values of `width` bytes each, which lie in one piece. The size of a piece
is a signed word; whether the machine has that much memory is no concern of a world. -/
def reserve (count width : Nat) : Act U Unit :=
  if count * width < Nat.pow 2 63 then pure () else fault .capacityOverflow

theorem reserve_done {count width : Nat} (room : count * width < Nat.pow 2 63) (env : Env U)
    (w : World U) : reserve count width env w = .done () w := by
  rw [reserve, if_pos room]
  rfl

theorem reserve_fault {count width : Nat} (full : Nat.pow 2 63 ≤ count * width) (env : Env U)
    (w : World U) : reserve count width env w = .fault .capacityOverflow w := by
  rw [reserve, if_neg (Nat.not_lt.2 full)]
  rfl

def ofOption : Option α → Act U α
  | some a => pure a
  | none => unfinished

/-- Runs `act`; if it faults, `cleanup` runs before the fault goes on. -/
@[inline] def onFault (act : Act U α) (cleanup : Act U Unit) : Act U α := fun env w =>
  match act env w with
  | .fault c w' =>
    match cleanup env w' with
    | .done _ w'' => .fault c w''
    | .fault _ w'' => .fault c w''
    | .unfinished => .unfinished
  | r => r

theorem onFault_done {act : Act U α} {cleanup : Act U Unit} {env : Env U} {w w' : World U} {a : α}
    (h : act env w = .done a w') : act.onFault cleanup env w = .done a w' := by
  rw [onFault, h]

def caught (act : Act U α) : Act U (Except Fault α) := fun env w =>
  match act env w with
  | .done a w' => .done (.ok a) w'
  | .fault c w' => .done (.error c) w'
  | .unfinished => .unfinished

def world : Act U (World U) := fun _ w => .done w w

def heap (f : Heap → α) : Act U α := fun _ w => .done (f w.heap) w

def settings : Act U Settings := fun _ w => .done w.settings w

@[inline] def updateHeap (f : Heap → α × Heap) : Act U α :=
  fun _ ⟨heap, pending, settings, client⟩ =>
    let (a, heap) := f heap
    .done a ⟨heap, pending, settings, client⟩

@[inline] def updateHeap? (f : Heap → Option (α × Heap)) : Act U (Option α) :=
  fun _ ⟨heap, pending, settings, client⟩ =>
    match f heap with
    | some (a, heap) => .done (some a) ⟨heap, pending, settings, client⟩
    | none => .done none ⟨heap, pending, settings, client⟩

def setPayload (h : Handle) (p : Payload) : Act U Unit :=
  updateHeap fun heap => ((), heap.setPayload h p)

def client : Act U U := fun _ w => .done w.client w

def modifyClient (f : U → U) : Act U Unit := fun _ w => .done () { w with client := f w.client }

def emit (e : Event) : Act U Unit := fun env w =>
  .done () { w with client := env.observe e w.client }

def loopFor (body : β → Act U (β ⊕ α)) : Nat → β → Env U → World U → Outcome U α
  | 0, _, _, _ => .unfinished
  | n + 1, b, env, w =>
    match body b env w with
    | .done (.inl b') w' => loopFor body n b' env w'
    | .done (.inr a) w' => .done a w'
    | .fault c w' => .fault c w'
    | .unfinished => .unfinished

theorem loopFor_succ_done {body : β → Act U (β ⊕ α)} {n : Nat} {b : β} {env : Env U}
    {w w' : World U} {a : α} :
    loopFor body (n + 1) b env w = .done a w' ↔
      (∃ b' w₁, body b env w = .done (.inl b') w₁ ∧ loopFor body n b' env w₁ = .done a w') ∨
      body b env w = .done (.inr a) w' := by
  rw [loopFor]
  match body b env w with
  | .done (.inl b') w₁ =>
    exact ⟨fun h => .inl ⟨b', w₁, rfl, h⟩, fun h => by
      obtain ⟨_, _, ⟨⟩, h⟩ | ⟨⟨⟩⟩ := h
      exact h⟩
  | .done (.inr c) w₁ => exact ⟨fun h => .inr (by cases h; rfl), fun h => by
      obtain ⟨_, _, ⟨⟩, _⟩ | ⟨⟨⟩⟩ := h
      rfl⟩
  | .fault _ _ | .unfinished => exact ⟨nofun, nofun⟩

def loop (body : β → Act U (β ⊕ α)) (b : β) : Act U α := fun env w =>
  loopFor body env.budget b env w

end Act

end Causeway
