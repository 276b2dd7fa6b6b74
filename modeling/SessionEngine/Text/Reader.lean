/-!
# Reading text

A reader takes something off the front of a text and leaves the rest, or fails
and leaves everything. `first <|> second` tries the second where the first
fails. A loop over a reader ends because each round must take something
(`repeated`).
-/

namespace SessionEngine

/-- Reads an `α` off the front of a text. -/
abbrev Reader (α : Type) := StateT (List Char) Option α

namespace Reader

def one (accepts : Char → Bool) : Reader Char
  | c :: rest => if accepts c then some (c, rest) else none
  | [] => none

def char (c : Char) : Reader Unit := do let _ ← one (· = c)

/-- Reads characters of a class as long as there are any. -/
def run (accepts : Char → Bool) : Reader (List Char) := fun text =>
  some (text.takeWhile accepts, text.dropWhile accepts)

/-- Reads characters of a class, at least one. -/
def word (accepts : Char → Bool) : Reader (List Char) := do
  return (← one accepts) :: (← run accepts)

def exactly (expected : List Char) : Reader Unit := fun text =>
  if expected.isPrefixOf text then some ((), text.drop expected.length) else none

/-- Reads so many characters of a class. -/
def count (accepts : Char → Bool) : Nat → Reader (List Char)
  | 0 => pure []
  | n + 1 => do return (← one accepts) :: (← count accepts n)

def maybe {α : Type} (reader : Reader α) : Reader (Option α) :=
  some <$> reader <|> pure none

/-- Reads with a reader for as long as it succeeds, with one round for each
character of `bound` at most. -/
def rounds {α : Type} (reader : Reader α) : (bound : List Char) → Reader (List α)
  | [] => pure []
  | _ :: bound => (do return (← reader) :: (← rounds reader bound)) <|> pure []

/-- Reads with a reader for as long as it succeeds. It is given no more rounds
than there are characters. -/
def repeated {α : Type} (reader : Reader α) : Reader (List α) := fun text =>
  rounds reader text text

/-- Reads things with separators between them, at least one. -/
def separated {α : Type} (reader : Reader α) (separator : Reader Unit) : Reader (List α) := do
  let first ← reader
  let rest ← repeated do
    separator
    reader
  return first :: rest

/-- What a reader makes of a whole text. -/
def whole? {α : Type} (reader : Reader α) (text : String) : Option α :=
  (reader text.toList).bind fun (a, rest) => if rest.isEmpty then some a else none

/-! ## Digits -/

/-- The value of a digit, of any base up to sixteen. -/
def digitValue (c : Char) : Nat :=
  if c.isDigit then c.toNat - '0'.toNat
  else if 'a' ≤ c then c.toNat - 'a'.toNat + 10
  else c.toNat - 'A'.toNat + 10

def isDigitOf (base : Nat) (c : Char) : Bool :=
  (c.isDigit || ('a' ≤ c && c ≤ 'f') || ('A' ≤ c && c ≤ 'F')) && digitValue c < base

def number (base : Nat) (digits : List Char) : Nat :=
  digits.foldl (fun n c => base * n + digitValue c) 0

/-- Reads a number written in a base, with any number of zeros in front. -/
def natural (base : Nat) : Reader Nat := do
  return number base (← word (isDigitOf base))

end Reader

end SessionEngine
