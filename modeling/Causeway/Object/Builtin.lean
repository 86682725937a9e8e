import Causeway.Indicator
import Causeway.Number.Layout
import Causeway.Text.Characters
/-!
# Builtin objects

Reading builtin values never raises. Sets keep the first of each class of equal values; containers
that hold themselves have no text and no key, which shows as nesting deeper than the heap has slots.
-/
set_option autoImplicit false

namespace Causeway

variable {U α : Type}

namespace Payload

def isNone : Payload → Bool
  | none => true
  | _ => false

def isFunction : Payload → Bool
  | function _ _ => true
  | _ => false

def asInt? : Payload → Option Int64
  | int i => some i
  | bool b => some (if b then 1 else 0)
  | _ => Option.none

def asFloat? : Payload → Option Binary64
  | float x => some x
  | int i => some (.ofInt i.toInt)
  | _ => Option.none

def asText? : Payload → Option String
  | str s => some s
  | _ => Option.none

/-- Zero and empty things are false. -/
def isTruthy : Payload → Bool
  | none => false
  | bool b => b
  | int i => i != 0
  | float x => !x.isZero
  | str s => !s.isEmpty
  | list items | set items => !items.isEmpty
  | tuple slots => !slots.isEmpty
  | _ => true

def length? : Payload → Option Nat
  | str s => some s.length
  | list items | set items => some items.length
  | tuple slots => some slots.length
  | _ => Option.none

end Payload

/-- A question about the payload of an object; `none` if it is gone. -/
def askPayload (h : Handle) (f : Payload → α) : Act U (Option α) :=
  Act.heap fun heap => (heap.payload? h).map f

def typeNameOf (h : Handle) : Act U String := Act.heap (·.typeName h)

def isNoneObject (h : Handle) : Act U Bool := do
  pure ((← askPayload h Payload.isNone).getD false)

def asInt (h : Handle) : Act U (Option Int64) := do
  pure ((← askPayload h Payload.asInt?).bind id)

def asFloat (h : Handle) : Act U (Option Binary64) := do
  pure ((← askPayload h Payload.asFloat?).bind id)

def asText (h : Handle) : Act U (Option String) := do
  pure ((← askPayload h Payload.asText?).bind id)

def isTruthy (h : Handle) : Act U Bool := do
  pure ((← askPayload h Payload.isTruthy).getD false)

def lengthOf (h : Handle) : Act U (Option Nat) := do
  pure ((← askPayload h Payload.length?).bind id)

namespace Heap

inductive Shape where
  | text (s : String)
  | items (before after : String) (items : List Handle)

def shape (heap : Heap) (h : Handle) : Shape :=
  match heap.payload? h with
  | none => .text "<released>"
  | some p =>
    match p with
    | .none => .text "None"
    | .bool b => .text (if b then "True" else "False")
    | .int i => .text (toString i.toInt)
    | .float x => .text (NumberLayout.peer.text x)
    | .str s => .text ("'" ++ s ++ "'")
    | .list items => .items "[" "]" items
    | .tuple slots => .items "(" ")" (slots.filterMap id)
    | .set items => .items "\x7b" "\x7d" items
    | p => .text ("<" ++ p.typeName ++ " object>")

def enclose (before after : String) (texts : List String) : String :=
  let comma := if before = "(" ∧ texts.length = 1 then "," else ""
  before ++ ", ".intercalate texts ++ comma ++ after

def repr? (heap : Heap) : (depth : Nat) → Handle → Option String
  | 0, _ => none
  | n + 1, h =>
    match heap.shape h with
    | .text s => some s
    | .items before after items => (items.mapM fun i => repr? heap n i).map (enclose before after)

end Heap

/-- The text of an object. Nesting deeper than there are slots never ends. -/
def repr (h : Handle) : Act U String := do
  Act.ofOption (← Act.heap fun heap => heap.repr? (heap.slots.size + 1) h)

inductive Key where
  | none
  | int (value : Int64)
  | float (bits : UInt64)
  | str (text : String)
  | tuple (items : List Key)

mutual

def Key.same : Key → Key → Bool
  | .none, .none => true
  | .int i, .int j => i == j
  | .float a, .float b => a == b
  | .str s, .str t => s == t
  | .tuple ks, .tuple ls => Key.allSame ks ls
  | _, _ => false

def Key.allSame : List Key → List Key → Bool
  | [], [] => true
  | k :: ks, l :: ls => k.same l && Key.allSame ks ls
  | _, _ => false

end

instance : BEq Key := ⟨Key.same⟩

/-- A float that denotes an integer within reach has the integer's key. -/
def Key.ofFloat (x : Binary64) : Key :=
  match x.integer? with
  | some i => if i.natAbs < Nat.pow 2 63 then .int (Int64.ofInt i) else .float x.bits
  | Option.none => .float x.bits

namespace Heap

def keysOf (key : Handle → Option (Option Key)) : List Handle → Option (Option (List Key))
  | [] => some (some [])
  | h :: hs =>
    match key h with
    | none => none
    | some none => some none
    | some (some k) => (keysOf key hs).map fun ks => ks.map (k :: ·)

/-- The key of an object nested at most `depth` deep; inside, `none` if it is not hashable. -/
def key? (heap : Heap) : (depth : Nat) → Handle → Option (Option Key)
  | 0, _ => none
  | n + 1, h =>
    match heap.payload? h with
    | some .none => some (some .none)
    | some (.bool b) => some (some (.int (if b then 1 else 0)))
    | some (.int i) => some (some (.int i))
    | some (.float x) => some (some (.ofFloat x))
    | some (.str s) => some (some (.str s))
    | some (.tuple slots) =>
      (keysOf (fun i => key? heap n i) (slots.filterMap id)).map fun ks => ks.map .tuple
    | _ => some none

end Heap

def keyOf (h : Handle) : Act U (Option Key) := do
  Act.ofOption (← Act.heap fun heap => heap.key? (heap.slots.size + 1) h)

def uniqueItems : (items : List Handle) → (keys : List Key) → (kept : List Handle) →
    Act U (Option (List Handle))
  | [], _, kept => pure (some kept)
  | h :: hs, keys, kept => do
    match ← keyOf h with
    | none =>
      holding (h :: hs ++ kept) (do raiseType s!"unhashable type: '{← typeNameOf h}'")
      releaseAll (h :: hs ++ kept)
      pure none
    | some k =>
      if keys.contains k then
        holding (hs ++ kept) (release h)
        uniqueItems hs keys kept
      else uniqueItems hs (keys ++ [k]) (kept ++ [h])

/-- A set of the items, which it takes over; none if one is not hashable. -/
def newSet (items : List Handle) : Act U (Option Handle) := do
  match ← uniqueItems items [] [] with
  | some kept => some <$> alloc (.set kept)
  | none => pure none

def newTuple (items : List Handle) : Act U Handle := alloc (.tuple (items.map some))

def appendItem (list item : Handle) : Act U Bool := do
  match ← Act.heap (·.payload? list) with
  | some (.list items) =>
    Act.setPayload list (.list (items ++ [item]))
    pure true
  | _ =>
    release item
    pure false

def tupleItems (h : Handle) : Act U (Option (List Handle)) := do
  match ← Act.heap (·.payload? h) with
  | some (.tuple slots) => some <$> acquireAll (slots.filterMap id)
  | _ => pure none

def listItems (h : Handle) : Act U (Option (List Handle)) := do
  match ← Act.heap (·.payload? h) with
  | some (.list items) => some <$> acquireAll items
  | _ => pure none

end Causeway
