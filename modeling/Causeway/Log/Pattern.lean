import Causeway.Text.Characters
/-!
# Patterns

Which texts can be what the value of a field is to match: numbers, and regular expressions as far as
they are well-formed. Letter cases, kinds of characters and boundaries of words are known for ASCII
only, so an expression that needs to know them beyond it is not well-formed. Nothing is repeated a
counted number of times, since no pattern holds a closing brace.
-/
set_option autoImplicit false

namespace Causeway.Log.Pattern

structure Mode where
  /-- Space and comments are passed over. -/
  spaced : Bool := false
  folded : Bool := false
  /-- All characters are told apart, and not only those of ASCII. -/
  wide : Bool := true

inductive Item where
  | char (c : Char)
  /-- A character by a code of two digits. -/
  | code (c : Char)
  /-- Digits, space or what words are made of, or everything else. -/
  | kind (negated : Bool)
  | edge (ofWord : Bool)

structure Nest where
  /-- The last part since the last bar or sign, if there is one. -/
  last : Option Nat := none
  /-- The deepest part before that one. -/
  before : Option Nat := none
  /-- What stands before the last bar or sign. -/
  left : Option Nat := none

namespace Nest

def limit : Nat := 250

def push (n : Nest) (depth : Nat) : Nest :=
  { n with
    last := some depth
    before := match n.last with
      | none => n.before
      | some last => some (max last (n.before.getD 0)) }

def branch (n : Nest) : Nat :=
  match n.before with
  | none => n.last.getD 0
  | some before => max before (n.last.getD 0) + 1

def depth (n : Nest) : Nat :=
  match n.left with
  | none => n.branch
  | some left => max left n.branch + 1

def bar (n : Nest) : Nest := { left := some (max n.branch (n.left.getD 0)) }

def combine (n : Nest) : Nest := { left := some n.depth }

def wrap (n : Nest) : Nest := { n with last := n.last.map (· + 1) }

end Nest

namespace Mode

def afterSpace (comment : Bool) : List Char → List Char
  | [] => []
  | c :: cs =>
    if comment then afterSpace (c != '\n') cs
    else if Text.isSpace c then afterSpace false cs
    else if c = '#' then afterSpace true cs
    else c :: cs

def skip (m : Mode) (cs : List Char) : List Char := if m.spaced then afterSpace false cs else cs

def admits (m : Mode) : Item → Bool
  | .char _ => !(m.wide && m.folded)
  | .code c => if m.wide then !m.folded else c.toNat < 128
  | .kind negated => !m.wide && !negated
  | .edge ofWord => !(m.wide && ofWord)

def lists (m : Mode) : Item → Bool
  | .char c | .code c => if m.wide then !m.folded else c.toNat < 128
  | .kind negated => !m.wide && !negated
  | .edge _ => false

def ranges (m : Mode) : Item → Item → Bool
  | .char c, .char d | .char c, .code d | .code c, .char d | .code c, .code d =>
    c ≤ d && m.lists (.char c) && m.lists (.char d)
  | _, _ => false

/-- The mode behind flags, of which those behind a hyphen are taken back. -/
def flagged (m : Mode) (flags : List Char) : Mode :=
  let (on, off) := List.span (· != '-') flags
  let set (flag : Char) (old : Bool) := on.contains flag || (old && !off.contains flag)
  { spaced := set 'x' m.spaced, folded := set 'i' m.folded, wide := set 'u' m.wide }

end Mode

def hexDigit? (c : Char) : Option Nat :=
  if c.isDigit then some (c.toNat - 48)
  else if 'a' ≤ c ∧ c ≤ 'f' then some (c.toNat - 87)
  else if 'A' ≤ c ∧ c ≤ 'F' then some (c.toNat - 55)
  else none

def code? (m : Mode) : (digits : Nat) → (code : Nat) → List Char → Option (Nat × List Char)
  | 0, code, cs => some (code, cs)
  | n + 1, code, cs =>
    match m.skip cs with
    | [] => none
    | c :: cs => do code? m n (16 * code + (← hexDigit? c)) cs

def codeLength? : Char → Option Nat
  | 'x' => some 2
  | 'u' => some 4
  | 'U' => some 8
  | _ => none

def escaped? : Char → Option Item
  | 'd' | 's' | 'w' => some (.kind false)
  | 'D' | 'S' | 'W' => some (.kind true)
  | 'A' | 'z' => some (.edge false)
  | 'b' | 'B' | '<' | '>' => some (.edge true)
  | 'a' => some (.char '\x07')
  | 't' => some (.char '\t')
  | 'n' => some (.char '\n')
  | 'v' => some (.char '\x0b')
  | 'f' => some (.char '\x0c')
  | 'r' => some (.char '\r')
  | c => if c.toNat < 128 && !c.isAlphanum then some (.char c) else none

def escape? (m : Mode) : List Char → Option (Item × List Char)
  | [] => none
  | c :: cs =>
    match codeLength? c with
    | none => (escaped? c).map (·, cs)
    | some n => do
      let (code, cs) ← code? m n 0 cs
      if code.isValidChar then
        some (if n = 2 then .code (Char.ofNat code) else .char (Char.ofNat code), cs)
      else none

def listed? (m : Mode) : List Char → Option (Item × List Char)
  | [] => none
  | '\\' :: cs => escape? m cs
  | c :: cs => some (.char c, cs)

def kindNames : List String :=
  ["alnum", "alpha", "ascii", "blank", "cntrl", "digit", "graph", "lower", "print", "punct",
    "space", "upper", "word", "xdigit"]

def named? : List Char → Option (Bool × List Char)
  | ':' :: cs =>
    let negated := cs.head? == some '^'
    let (name, rest) := List.span (· != ':') (if negated then cs.tail else cs)
    match rest with
    | ':' :: ']' :: rest =>
      if kindNames.contains (String.ofList name) then some (negated, rest) else none
    | _ => none
  | _ => none

def opening? (m : Mode) (cs : List Char) : Option (List Char) :=
  match m.skip cs with
  | '^' :: cs => if m.wide then some (m.skip cs) else none
  | cs => some cs

/-- What stands behind a hyphen that makes a range. With a closing bracket or another hyphen behind
it it makes none. -/
def rangeEnd? (m : Mode) (cs : List Char) : Option (List Char) :=
  match m.skip cs with
  | '-' :: cs =>
    match m.skip cs with
    | ']' :: _ | '-' :: _ => none
    | cs => some cs
  | _ => none

def range? (m : Mode) (cs : List Char) : Option (List Char) := do
  let (item, cs) ← listed? m cs
  match rangeEnd? m cs with
  | none => if m.lists item then some cs else none
  | some behind => do
    let (last, cs) ← listed? m behind
    if m.ranges item last then some cs else none

/-- Reads on between brackets, within others, to behind the closing bracket, and tells how deep the
list is nested. At its start hyphens stand for themselves, and so does a closing bracket that comes
first. Every step takes a character at least. -/
def brackets? (m : Mode) : (steps : Nat) → (around : List Nest) → (start : Bool) → Nest →
    List Char → Option (Nat × List Char)
  | 0, _, _, _, _ => none
  | n + 1, around, start, nest, cs =>
    let cs := m.skip cs
    if start && (cs.head? == some '-' || (cs.head? == some ']' && nest.last.isNone)) then
      if m.lists (.char '-') then
        brackets? m n around (cs.head? == some '-') (nest.push 0) cs.tail
      else none
    else
      match cs with
      | [] => none
      | ']' :: cs =>
        match around with
        | [] => some (nest.depth + 1, cs)
        | outer :: around => brackets? m n around false (outer.push (nest.depth + 1)) cs
      | '&' :: '&' :: cs | '-' :: '-' :: cs | '~' :: '~' :: cs =>
        brackets? m n around false nest.combine cs
      | '[' :: cs =>
        match named? cs with
        | some (negated, cs) =>
          if (if m.wide then !m.folded else !negated) then
            brackets? m n around false (nest.push 0) cs
          else none
        | none => do brackets? m n (nest :: around) true {} (← opening? m cs)
      | cs => do brackets? m n around false (nest.push 0) (← range? m cs)

inductive Opening where
  /-- Flags for the rest of the group around it. -/
  | flags (m : Mode)
  | group (m : Mode)
  | named (name : List Char)

def areFlags (flags : List Char) : Bool :=
  flags.all ['i', 'm', 's', 'R', 'U', 'u', 'x', '-'].contains && decide flags.Nodup
    && flags.getLast? != some '-'

def isName : List Char → Bool
  | [] => false
  | c :: cs =>
    (c == '_' || Text.isLetter c)
      && cs.all fun c => ['_', '.', '[', ']'].contains c || Text.isAlphanumeric c

def name? (cs : List Char) : Option (Opening × List Char) :=
  match List.span (· != '>') cs with
  | (name, _ :: rest) => if isName name then some (.named name, rest) else none
  | _ => none

def parenthesis? (m : Mode) (cs : List Char) : Option (Opening × List Char) :=
  match m.skip cs with
  | '?' :: 'P' :: '<' :: cs | '?' :: '<' :: cs => name? cs
  | '?' :: cs =>
    let (flags, rest) := List.span (fun c => c != ':' && c != ')') cs
    if areFlags flags then
      match rest with
      | [] => none
      | ':' :: rest => some (.group (m.flagged flags), rest)
      | _ :: rest => if flags.isEmpty then none else some (.flags (m.flagged flags), rest)
    else none
  | cs => some (.group m, cs)

/-- Whether the rest of a regular expression is well-formed: with the modes of the groups around and
what was read of them, the names that are taken, and whether there is something to repeat. Every
step takes a character at least. -/
def accepts : (steps : Nat) → Mode → (around : List (Mode × Nest)) → (names : List (List Char)) →
    (operand : Bool) → Nest → List Char → Bool
  | 0, _, _, _, _, _, _ => false
  | n + 1, m, around, names, operand, nest, cs =>
    match m.skip cs with
    | [] => around.isEmpty && nest.depth ≤ Nest.limit
    | '(' :: cs =>
      match parenthesis? m cs with
      | none => false
      | some (.flags m, cs) => accepts n m around names false (nest.push 0) cs
      | some (.group inner, cs) => accepts n inner ((m, nest) :: around) names false {} cs
      | some (.named name, cs) =>
        !names.contains name && accepts n m ((m, nest) :: around) (name :: names) false {} cs
    | ')' :: cs =>
      match around with
      | [] => false
      | (m, outer) :: around => accepts n m around names true (outer.push (nest.depth + 1)) cs
    | '|' :: cs => accepts n m around names false nest.bar cs
    | '[' :: cs =>
      match opening? m cs >>= brackets? m (cs.length + 1) [] true {} with
      | none => false
      | some (depth, cs) => accepts n m around names true (nest.push depth) cs
    | '\\' :: cs =>
      match escape? m cs with
      | none => false
      | some (item, cs) => m.admits item && accepts n m around names true (nest.push 0) cs
    | '.' :: cs => m.wide && accepts n m around names true (nest.push 0) cs
    | '^' :: cs | '$' :: cs => accepts n m around names true (nest.push 0) cs
    | '?' :: cs | '*' :: cs | '+' :: cs =>
      let cs := if cs.head? == some '?' then cs.tail else cs
      operand && accepts n m around names true nest.wrap cs
    | c :: cs =>
      c.toNat != 123 && m.admits (.char c) && accepts n m around names true (nest.push 0) cs

def isRegular (cs : List Char) : Bool := accepts (cs.length + 1) {} [] [] false {} cs

def isNumber (cs : List Char) : Bool :=
  ["inf", "infinity", "nan"].contains (String.ofList (cs.map Char.toLower))
    || (let (whole, rest) := List.span Char.isDigit cs
      let (places, rest) := match rest with
        | '.' :: rest => List.span Char.isDigit rest
        | rest => ([], rest)
      !(whole.isEmpty && places.isEmpty) && match rest with
        | [] => true
        | e :: exponent =>
          let digits := match exponent with
            | '+' :: digits | '-' :: digits => digits
            | digits => digits
          (e == 'e' || e == 'E') && !digits.isEmpty && digits.all Char.isDigit)

/-- A number with a plus sign is no regular expression, but can be matched all the same. -/
def isValid (s : String) : Bool :=
  match s.toList with
  | '+' :: cs => isNumber cs
  | cs => isRegular cs

end Causeway.Log.Pattern
