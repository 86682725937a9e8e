import Causeway.Log.Event
import Causeway.Log.Pattern
import Causeway.Text.Characters
/-!
# Log filters

A filter is a list of directives. Each lets through the events it is about up to a level, and of the
directives about an event the most specific one decides. A directive may name a target, which stands
for all targets that begin with it, and a field that an event must have. Directives about spans and
about values of fields are about no event, since the library has no spans.
-/
set_option autoImplicit false

namespace Causeway.Log

structure Directive where
  /-- Without a target a directive is about events of every target. -/
  target : Option String := none
  span : Option String := none
  /-- The name of a field, and what its value is to match. -/
  field : Option (String × Option String) := none
  /-- The greatest verbosity let through, 0 for none at all. -/
  verbosity : Nat
deriving DecidableEq

def fullVerbosity : Nat := Level.trace.verbosity

def number? (s : String) : Option Nat :=
  let digits := match s.toList with
    | '+' :: ds => ds
    | ds => ds
  if digits.isEmpty then none
  else digits.foldlM (fun n c => if c.isDigit then some (10 * n + (c.toNat - 48)) else none) 0

def verbosity? (s : String) : Option Nat :=
  match number? s with
  | some n => if n ≤ fullVerbosity then some n else none
  | none =>
    match s.map Char.toLower with
    | "off" => some 0
    | "error" => some 1
    | "warn" => some 2
    | "info" => some 3
    | "debug" => some 4
    | "trace" => some 5
    | _ => none

namespace Directive

def isStart (c : Char) : Bool := Text.isAlphanumeric c || c == '-' || c == ':' || c == '_'

/-- A field and what its value is to match, which has to be a pattern. Behind a second equality sign
nothing counts. -/
def field? (s : String) : Option (String × Option String) :=
  match s.splitOn "=" with
  | [name] => if name.isEmpty then none else some (name, none)
  | name :: value :: _ => if Pattern.isValid value then some (name, some value) else none
  | [] => none

/-- What a directive is told its form by: the characters without the space around it, by their
offsets behind that space. -/
abbrev Marks := List (Nat × Char)

def Marks.seek (kind : Char → Bool) (marks : Marks) : Marks :=
  List.dropWhile (fun mark => !kind mark.2) marks

def levelAt? (text : List Char) (offset : Nat) : Option Nat := do
  let level ← Text.dropBytes? text offset
  if level.isEmpty then some fullVerbosity else verbosity? (String.ofList level)

def afterBrackets (d : Directive) (text : List Char) : Marks → Option Directive
  | [] => some d
  | (n, '=') :: _ => (levelAt? text (n + 1)).map fun verbosity => { d with verbosity }
  | _ => none

def insideBrackets (d : Directive) (text : List Char) (start : Nat) (marks : Marks) :
    Option Directive :=
  match Marks.seek (fun c => c == ']' || c.toNat == 123) marks with
  | [] => none
  | (n, c) :: behind => do
    let span ← Text.cut? text start n
    if c = ']' then afterBrackets { d with span := some span } text behind
    else
      let d := { d with span := if span.isEmpty then none else some span }
      match Marks.seek (fun c => c.toNat == 125) behind with
      | (last, _) :: (_, ']') :: behind =>
        let field ← field? (← Text.cut? text (n + 1) last)
        afterBrackets { d with field := some field } text behind
      | _ => none

/-- Reads a directive: a level, or a target and its level, or brackets in between. Space before it
is looked past to see where its parts begin and end, but not when they are cut from the text: they
are cut as far behind its start as they would stand without the space. -/
def parse? (s : String) : Option Directive :=
  let text := s.toList
  let marks := Text.withOffsets 0 (Text.trimmed text)
  let full : Directive := { verbosity := fullVerbosity }
  match marks with
  | [] => none
  | (n, first) :: behind =>
    if first = '[' then insideBrackets full text (n + 1) behind
    else if !isStart first then none
    else
      match Marks.seek (fun c => c == '=' || c == '[') marks with
      | [] =>
        match verbosity? s with
        | some verbosity => some { verbosity }
        | none => some { full with target := some s }
      | (n, c) :: behind => do
        let d := { full with target := some (← Text.cut? text 0 n) }
        if c = '[' then insideBrackets d text (n + 1) behind
        else (levelAt? text (n + 1)).map fun verbosity => { d with verbosity }

def isAbout (d : Directive) (e : Event) : Bool :=
  d.span.isNone
    && d.field.all (fun (name, value) => value.isNone && e.fieldNames.contains name)
    && match d.target with
      | none => true
      | some target => target.isPrefixOf e.target

def weight (d : Directive) : Nat :=
  match d.target with
  | none => 0
  | some target => target.utf8ByteSize + 1

/-- Whether a directive is more specific than another: by the length of its target, then by having a
field, then by the order of either. -/
def outranks (d e : Directive) : Bool :=
  if d.weight ≠ e.weight then d.weight > e.weight
  else if d.field.isSome ≠ e.field.isSome then d.field.isSome
  else if d.target ≠ e.target then e.target.getD "" < d.target.getD ""
  else ((e.field.map (·.1)).getD "") < ((d.field.map (·.1)).getD "")

end Directive

abbrev Filter := List Directive

namespace Filter

def add (f : Filter) (d : Directive) : Filter :=
  d :: f.filter fun other =>
    !(other.target == d.target && other.span == d.span && other.field == d.field)

def deciding? (f : Filter) (e : Event) : Option Directive :=
  (f.filter (·.isAbout e)).foldl
    (fun best d => match best with
      | some b => if d.outranks b then some d else some b
      | none => some d)
    none

def lets (f : Filter) (e : Event) : Bool :=
  match f.deciding? e with
  | some d => e.level.verbosity ≤ d.verbosity
  | none => false

def addAll (f : Filter) (directives : List Directive) : Filter := directives.foldl add f

def partsOf (s : String) : List String := (s.splitOn ",").filter fun part => !part.isEmpty

/-- A level, unless the environment says otherwise, and further directives on top. What is no
directive is passed over. -/
def build (level : Level) (fromEnv : Option String) (more : Option String) : Filter :=
  let named := (partsOf (fromEnv.getD "")).filterMap Directive.parse?
  let base : Filter :=
    if named.isEmpty then [{ verbosity := level.verbosity }] else addAll [] named
  base.addAll (((more.getD "").splitOn ",").filterMap fun part =>
    Directive.parse? (String.ofList (Text.trimmed part.toList)))

def complains (fromEnv : Option String) : Bool :=
  (partsOf (fromEnv.getD "")).any fun part => (Directive.parse? part).isNone

end Filter

end Causeway.Log
