import Causeway.Toml.Node
/-!
# Tokens of a document

The parts of a document below the level of lines: keys, texts, numbers, dates. A scanner takes what
it recognises off the front of the text and fails without taking anything.
-/
set_option autoImplicit false

namespace Causeway.Toml

abbrev Scan := StateT (List Char) Option

namespace Scan

def peek? : Scan (Option Char) := do pure (← get).head?

def char (p : Char → Bool) : Scan Char := fun
  | c :: cs => if p c then some (c, cs) else none
  | [] => none

def exactly (c : Char) : Scan Unit := do let _ ← char (· == c)

def word (s : String) : Scan Unit := s.toList.forM exactly

def takeWhile (p : Char → Bool) : Scan (List Char) :=
  fun cs => some (cs.takeWhile p, cs.dropWhile p)

def some1 (p : Char → Bool) : Scan (List Char) := do
  let c ← char p
  let cs ← takeWhile p
  pure (c :: cs)

/-- Runs a scanner as often as it succeeds, at most `fuel` times. -/
def many {α : Type} (s : Scan α) : (fuel : Nat) → Scan (List α)
  | 0 => pure []
  | n + 1 => do
    match ← optional s with
    | none => pure []
    | some a => (a :: ·) <$> many s n

def manyAll {α : Type} (s : Scan α) : Scan (List α) := do many s (← get).length

def digitIn (base : Nat) (c : Char) : Option Nat :=
  let n := c.toNat
  let v :=
    if '0'.toNat ≤ n ∧ n ≤ '9'.toNat then n - '0'.toNat
    else if 'a'.toNat ≤ n ∧ n ≤ 'f'.toNat then n - 'a'.toNat + 10
    else if 'A'.toNat ≤ n ∧ n ≤ 'F'.toNat then n - 'A'.toNat + 10
    else base
  if v < base then some v else none

def isDigitIn (base : Nat) (c : Char) : Bool := (digitIn base c).isSome

def isDigit : Char → Bool := isDigitIn 10

def number (base : Nat) (ds : List Char) : Nat :=
  ds.foldl (fun n c => base * n + (digitIn base c).getD 0) 0

end Scan

open Scan

def isBlank (c : Char) : Bool := c == ' ' || c == '\t'

/-- Every character but a tab that is a control is refused. -/
def isPlain (c : Char) : Bool := c == '\t' || (c.toNat ≥ 32 && c.toNat != 127)

def blanks : Scan Unit := do let _ ← takeWhile isBlank

def newline : Scan Unit := exactly '\n' <|> word "\r\n"

def comment : Scan Unit := do
  exactly '#'
  let _ ← takeWhile isPlain

def endOfText : Scan Unit := do if (← get).isEmpty then pure () else failure

def lineEnd : Scan Unit := do
  blanks
  let _ ← optional comment
  newline <|> endOfText

def filler : Scan Unit := do
  let _ ← manyAll ((do let _ ← some1 isBlank) <|> newline <|> (do comment; newline))

def codePoint (count : Nat) : Scan Char := do
  let ds ← many (char (isDigitIn 16)) count
  let n := number 16 ds
  if ds.length = count ∧ n.isValidChar then pure (Char.ofNat n) else failure

def escaped : Scan Char := do
  exactly '\\'
  match ← char fun _ => true with
  | 'b' => pure (Char.ofNat 8)
  | 't' => pure '\t'
  | 'n' => pure '\n'
  | 'f' => pure (Char.ofNat 12)
  | 'r' => pure '\r'
  | '"' => pure '"'
  | '\\' => pure '\\'
  | 'u' => codePoint 4
  | 'U' => codePoint 8
  | _ => failure

def quoted : Scan String := do
  exactly '"'
  let cs ← manyAll (char (fun c => isPlain c && c != '"' && c != '\\') <|> escaped)
  exactly '"'
  pure (String.ofList cs)

def literal : Scan String := do
  exactly '\''
  let cs ← takeWhile fun c => isPlain c && c != '\''
  exactly '\''
  pure (String.ofList cs)

def notClosing (quote : Char) : Scan Unit := fun cs =>
  if (cs.take 3).length = 3 ∧ (cs.take 3).all (· == quote) then none else some ((), cs)

def lineBreak : Scan (List Char) := do
  newline
  pure ['\n']

/-- A backslash at the end of a line takes all blanks and line ends after it away. -/
def joinedLine : Scan (List Char) := do
  exactly '\\'
  blanks
  newline
  let _ ← manyAll ((do let _ ← some1 isBlank) <|> newline)
  pure []

def longText (quote : Char) (piece : Scan (List Char)) : Scan String := do
  let fence : Scan Unit := do exactly quote; exactly quote; exactly quote
  fence
  let _ ← optional newline
  let pieces ← manyAll do
    notClosing quote
    piece <|> (do pure [← char (· == quote)])
  fence
  let tail ← many (char (· == quote)) 2
  pure (String.ofList (pieces.flatten ++ tail))

def longQuoted : Scan String :=
  longText '"' <|
    (do pure [← char (fun c => isPlain c && c != '"' && c != '\\')])
      <|> lineBreak <|> (do pure [← escaped]) <|> joinedLine

def longLiteral : Scan String :=
  longText '\'' ((do pure [← char (fun c => isPlain c && c != '\'')]) <|> lineBreak)

def isBare (c : Char) : Bool :=
  isDigit c || ('a' ≤ c && c ≤ 'z') || ('A' ≤ c && c ≤ 'Z') || c == '-' || c == '_'

def simpleKey : Scan String := do
  blanks
  let key ← quoted <|> literal <|> (do pure (String.ofList (← some1 isBare)))
  blanks
  pure key

/-- The deepest nesting and the longest path a document may have. -/
def depthLimit : Nat := 80

def dottedKey : Scan (List String × String) := do
  let first ← simpleKey
  let rest ← manyAll (do exactly '.'; simpleKey)
  let parts := first :: rest
  if parts.length < depthLimit then pure (parts.dropLast, parts.getLastD first) else failure

def digits (base : Nat) : Scan (List Char) := do
  let c ← char (isDigitIn base)
  let cs ← manyAll (char (isDigitIn base) <|> (do exactly '_'; char (isDigitIn base)))
  pure (c :: cs)

def sign : Scan Bool := do
  match ← optional (char fun c => c == '+' || c == '-') with
  | some '-' => pure true
  | _ => pure false

def decimalDigits : Scan (List Char) := do
  if (← peek?) == some '0' then pure [← char (· == '0')] else digits 10

def isWord (n : Int) : Bool := Int64.minValue.toInt ≤ n && n ≤ Int64.maxValue.toInt

def integer : Scan Scalar := do
  let based (mark : Char) (base : Nat) : Scan Int := do
    exactly '0'
    exactly mark
    pure (number base (← digits base))
  let decimal : Scan Int := do
    let minus ← sign
    let n : Int := number 10 (← decimalDigits)
    pure (if minus then -n else n)
  let n ← based 'x' 16 <|> based 'o' 8 <|> based 'b' 2 <|> decimal
  if isWord n then pure (.integer n) else failure

def overflows (m : Nat) (e : Int) : Bool :=
  let limit := Nat.pow 2 1024 - Nat.pow 2 970
  let places := (-e).toNat
  if m = 0 || places > m.log2 then false
  else if e > 400 then true
  else m * Nat.pow 10 e.toNat ≥ limit * Nat.pow 10 places

/-- A number with a fraction or an exponent. Only a positive one may not be too large. -/
def float : Scan Scalar := do
  let minus ← sign
  let whole ← decimalDigits
  let point ← optional (do exactly '.'; digits 10)
  let exponent ← optional do
    let _ ← char fun c => c == 'e' || c == 'E'
    let negative ← sign
    let n : Int := number 10 (← digits 10)
    pure (if negative then -n else n)
  if point.isNone && exponent.isNone then failure
  else
    let places := point.getD []
    let m := number 10 (whole ++ places)
    if !minus && overflows m (exponent.getD 0 - places.length) then failure else pure .float

def specialFloat : Scan Scalar := do
  let _ ← sign
  word "inf" <|> word "nan"
  pure .float

def field (count least greatest : Nat) : Scan Nat := do
  let ds ← many (char isDigit) count
  let n := number 10 ds
  if ds.length = count ∧ least ≤ n ∧ n ≤ greatest then pure n else failure

def daysIn (year month : Nat) : Nat :=
  match month with
  | 2 => if year % 4 = 0 ∧ (year % 100 ≠ 0 ∨ year % 400 = 0) then 29 else 28
  | 4 | 6 | 9 | 11 => 30
  | _ => 31

def date : Scan Unit := do
  let year ← field 4 0 9999
  exactly '-'
  let month ← field 2 1 12
  exactly '-'
  let _ ← field 2 1 (daysIn year month)

def time : Scan Unit := do
  let _ ← field 2 0 23
  exactly ':'
  let _ ← field 2 0 59
  exactly ':'
  let _ ← field 2 0 60
  let _ ← optional (do exactly '.'; some1 isDigit)

def timeOffset : Scan Unit :=
  (do let _ ← char fun c => c == 'Z' || c == 'z') <|> do
    let _ ← char fun c => c == '+' || c == '-'
    let _ ← field 2 0 23
    exactly ':'
    let _ ← field 2 0 59

def dateTime : Scan Scalar := do
  let full : Scan Unit := do
    date
    let _ ← optional do
      let _ ← char fun c => c == 'T' || c == 't' || c == ' '
      time
      optional timeOffset
  full <|> time
  pure .dateTime

def scalar : Scan Scalar :=
  (.text <$> (longQuoted <|> quoted <|> longLiteral <|> literal))
    <|> dateTime <|> float <|> integer <|> specialFloat
    <|> (do word "true"; pure (.bool true))
    <|> (do word "false"; pure (.bool false))

end Causeway.Toml
