import SessionEngine.Toml.Scalar

/-!
# Reading TOML

A document is read line by line into statements, and the statements are
carried out (`read?`). There is no word about why a document is refused.

Values lie in each other to a depth of 79 at most, and a key has at most 79
names; this is also why reading a value ends.
-/

namespace SessionEngine

namespace Toml

/-- The greatest depth of values, and the greatest length of a key. -/
def maxDepth : Nat := 79

/-- Reads space within a line. -/
def blanks : Reader Unit := do let _ ← Reader.run isBlank

/-- Reads a comment up to the end of the line. -/
def comment : Reader Unit := do
  Reader.char '#'
  let _ ← Reader.run isPlain

/-- Reads space, ends of lines, and comments that end with their line. -/
def gap : Reader Unit := do
  let _ ← Reader.repeated <|
    (do let _ ← Reader.one isBlank) <|> newline <|> (do comment; newline)

/-! ## Keys -/

/-- Whether a character may stand in a name without quotes. -/
def isBare (c : Char) : Bool := c.isAlphanum || c = '_' || c = '-'

def name : Reader String :=
  String.ofList <$> (basicText <|> literalText <|> Reader.word isBare)

def key : Reader (List String) := do
  let names ← Reader.separated name do
    blanks
    Reader.char '.'
    blanks
  if names.length ≤ maxDepth then return names else failure

def entry (value : Reader Value) : Reader (List String × Value) := do
  let key ← key
  blanks
  Reader.char '='
  blanks
  return (key, ← value)

/-! ## Values -/

def array (value : Reader Value) : Reader Value := do
  Reader.char '['
  gap
  let items ← Reader.maybe <| Reader.separated (do let v ← value; gap; return v) do
    Reader.char ','
    gap
  let _ ← Reader.maybe (do
    if items.isSome then Reader.char ',' else failure
    gap)
  Reader.char ']'
  return .array (items.getD [])

/-- Reads a table that is written as a value, on one line. -/
def writtenTable (value : Reader Value) : Reader Value := do
  Reader.char '\x7b'
  blanks
  let entries ← Reader.maybe <| Reader.separated (do let e ← entry value; blanks; return e) do
    Reader.char ','
    blanks
  Reader.char '\x7d'
  (written? (entries.getD []) : Option Value)

/-- Reads a value in which others lie to some depth. -/
def value : (depth : Nat) → Reader Value
  | 0 => scalar
  | depth + 1 => fun text =>
      (scalar <|> array (value depth) <|> writtenTable (value depth)) text

/-! ## Statements -/

def header : Reader (List String) := do
  Reader.char '['
  blanks
  let path ← key
  blanks
  Reader.char ']'
  return path

def statement : Reader Statement :=
  (do
    Reader.char '['
    let path ← header
    Reader.char ']'
    return .element path) <|>
  .table <$> header <|>
  (do
    let (key, value) ← entry (value maxDepth)
    return .assign key value)

/-- Reads a line, without its end. -/
def line : Reader (Option Statement) := do
  blanks
  let s ← Reader.maybe statement
  blanks
  let _ ← Reader.maybe comment
  return s

def document : Reader (List Statement) := do
  let _ ← Reader.maybe (Reader.char '\ufeff')
  return (← Reader.separated line newline).filterMap id

def read? (text : String) : Option Table := do
  build? [] [] (← Reader.whole? document text)

end Toml

end SessionEngine
