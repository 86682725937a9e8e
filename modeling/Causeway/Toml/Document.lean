import Causeway.Toml.Scan
/-!
# Documents

A document is read line by line into a tree of tables. It has no tree if a line is not one of the
forms a line may have, or repeats or contradicts an earlier one.
-/
set_option autoImplicit false

namespace Causeway.Toml

open Scan

def accept {ε α : Type} : Except ε α → Scan α
  | .ok a => pure a
  | .error _ => failure

/-- Items between commas. The last one may have a comma behind it only if `trailing` says so. -/
def separated {α : Type} (item : Scan α) (trailing : Bool) : Scan (List α) := do
  match ← optional item with
  | none => pure []
  | some first =>
    let rest ← manyAll (do exactly ','; item)
    if trailing then
      let _ ← optional (exactly ',')
    pure (first :: rest)

def value : (depth : Nat) → Scan Node
  | 0 => .scalar <$> scalar
  | depth + 1 =>
    let items : Scan Node := do
      exactly '['
      let items ← separated (do filler; let v ← value depth; filler; pure v) true
      filler
      exactly ']'
      pure (.array items)
    let pairs : Scan Node := do
      exactly (Char.ofNat 123)
      let pairs ← separated
        (do
          let (path, key) ← dottedKey
          exactly '='
          blanks
          let v ← value depth
          blanks
          pure (path, key, v)) false
      blanks
      exactly (Char.ofNat 125)
      accept (inlineTable pairs)
    items <|> pairs <|> (.scalar <$> scalar)

inductive Line where
  | empty
  | header (path : List String) (key : String)
  | arrayHeader (path : List String) (key : String)
  | pair (path : List String) (key : String) (value : Node)

def line : Scan Line := do
  blanks
  let l ← (do
      word "[["
      let (path, key) ← dottedKey
      word "]]"
      pure (Line.arrayHeader path key))
    <|> (do
      exactly '['
      let (path, key) ← dottedKey
      exactly ']'
      pure (Line.header path key))
    <|> (do
      let (path, key) ← dottedKey
      exactly '='
      blanks
      pure (Line.pair path key (← value (depthLimit - 1))))
    <|> pure .empty
  lineEnd
  pure l

def linesOf : (fuel : Nat) → List Char → Option (List Line)
  | _, [] => some []
  | 0, _ => none
  | n + 1, cs => do
    let (l, rest) ← line.run cs
    (l :: ·) <$> linesOf n rest

/-- Enters a line into a document; `current` is the table that pairs go to. -/
def enterLine (current : List String) (entries : Entries) :
    Line → Except Clash (List String × Entries)
  | .empty => .ok (current, entries)
  | .header path key => do
    let (_, entries) ← addTable path key .header entries
    pure (path ++ [key], entries)
  | .arrayHeader path key => do
    let (_, entries) ← addArrayTable path key .header entries
    pure (path ++ [key], entries)
  | .pair path key value => do
    let (_, entries) ← changeAt false (addValue path key value) current .header entries
    pure (current, entries)

def enterLines (current : List String) (entries : Entries) : List Line → Except Clash Entries
  | [] => .ok entries
  | l :: ls => do
    let (current, entries) ← enterLine current entries l
    enterLines current entries ls

/-- The tree of a document. A byte order mark at the start is no part of it. -/
def parse? (text : String) : Option Entries :=
  let cs := text.toList
  let cs := if cs.head? = some (Char.ofNat 0xFEFF) then cs.tail else cs
  match linesOf (cs.length + 1) cs with
  | none => none
  | some ls => (enterLines [] [] ls).toOption

end Causeway.Toml
