/-!
# Documents as trees

A configuration document is a tree of tables. A table remembers how it came about, because that says
whether a later line may still add to it.
-/
set_option autoImplicit false

namespace Causeway.Toml

inductive Scalar where
  | text (value : String)
  | integer (value : Int)
  | float
  | bool (value : Bool)
  | dateTime
deriving DecidableEq

inductive TableKind where
  /-- Its own header line; the root counts as having one. -/
  | header
  /-- A header line of a table below it. -/
  | implied
  /-- A dotted key. -/
  | dotted
  /-- Braces. It is complete where it stands. -/
  | inline
deriving DecidableEq

inductive Node where
  | scalar (value : Scalar)
  | array (items : List Node)
  | table (kind : TableKind) (entries : List (String × Node))
  /-- An array of tables, made by header lines, the last one first. -/
  | tables (last : Node) (earlier : List Node)

abbrev Entries := List (String × Node)

namespace Entries

def get? (entries : Entries) (key : String) : Option Node := entries.lookup key

def put (entries : Entries) (key : String) (node : Node) : Entries :=
  if entries.any (·.1 == key) then
    entries.map fun e => if e.1 == key then (key, node) else e
  else entries ++ [(key, node)]

end Entries

inductive Clash where
  | duplicateKey
  | notATable
deriving DecidableEq

/-- What `change` makes of a table: its kind and entries afterwards. -/
abbrev Change := TableKind → Entries → Except Clash (TableKind × Entries)

namespace Node

def enter (viaDots : Bool) (change : Change) : Node → Except Clash Node
  | table kind entries =>
    if viaDots && (kind == .header || kind == .inline) then .error .duplicateKey
    else if kind == .inline then .error .notATable
    else do
      let (kind, entries) ← change kind entries
      pure (table kind entries)
  | tables (table kind entries) earlier => do
    let (kind, entries) ← change kind entries
    pure (tables (table kind entries) earlier)
  | _ => .error .notATable

end Node

/-- Applies `change` to the table at the end of a path, making the tables on the way that are not
there yet. -/
def changeAt (viaDots : Bool) (change : Change) : (path : List String) → Change
  | [], kind, entries => change kind entries
  | key :: path, kind, entries => do
    let found := (Entries.get? entries key).getD (.table (if viaDots then .dotted else .implied) [])
    let node ← found.enter viaDots (changeAt viaDots change path)
    pure (kind, Entries.put entries key node)

/-- Adds a value under a key. A table made by dotted keys takes dotted keys only, any other none. -/
def addValue (path : List String) (key : String) (node : Node) : Change :=
  changeAt true
    (fun kind entries =>
      if (kind == .dotted) == path.isEmpty then .error .duplicateKey
      else if (Entries.get? entries key).isSome then .error .duplicateKey
      else .ok (kind, Entries.put entries key node))
    path

def addTable (path : List String) (key : String) : Change :=
  changeAt false
    (fun kind entries =>
      match Entries.get? entries key with
      | none => .ok (kind, Entries.put entries key (.table .header []))
      | some (.table .implied below) => .ok (kind, Entries.put entries key (.table .header below))
      | some _ => .error .duplicateKey)
    path

def addArrayTable (path : List String) (key : String) : Change :=
  changeAt false
    (fun kind entries =>
      match Entries.get? entries key with
      | none => .ok (kind, Entries.put entries key (.tables (.table .header []) []))
      | some (.tables last earlier) =>
        .ok (kind, Entries.put entries key (.tables (.table .header []) (last :: earlier)))
      | some _ => .error .duplicateKey)
    path

def inlineTable (pairs : List (List String × String × Node)) : Except Clash Node := do
  let entries ← pairs.foldlM
    (fun entries (path, key, node) => (·.2) <$> addValue path key node .header entries) []
  pure (.table .inline entries)

end Causeway.Toml
