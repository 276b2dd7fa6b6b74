import SessionEngine.Text.Reader
import SessionEngine.Toml.Value

/-!
# Scalars of TOML

The written forms of texts, numbers, truth values and points in time.

A text stands between double quotes, with escapes, or between single quotes,
as it is. Three quotes begin a text of several lines: a line break behind them
is dropped, and up to two quotes may stand directly before the last three.
-/

namespace SessionEngine

namespace Toml

/-- What may stand in texts and comments: no control characters but tabs. -/
def isPlain (c : Char) : Bool := c = '\t' || (' ' ≤ c && c ≠ '\x7f')

/-- Space within a line. -/
def isBlank (c : Char) : Bool := c = ' ' || c = '\t'

def newline : Reader Unit :=
  Reader.char '\n' <|> Reader.exactly ['\r', '\n']

/-! ## Texts -/

def escape : Reader Char := do
  match ← Reader.one fun _ => true with
  | 'b' => return '\x08'
  | 't' => return '\t'
  | 'n' => return '\n'
  | 'f' => return '\x0c'
  | 'r' => return '\r'
  | '\x22' => return '\x22'
  | '\\' => return '\\'
  | 'u' => codePoint 4
  | 'U' => codePoint 8
  | _ => failure
where
  codePoint (digits : Nat) : Reader Char := do
    let n := Reader.number 16 (← Reader.count (Reader.isDigitOf 16) digits)
    if n.isValidChar then return Char.ofNat n else failure

def basicText : Reader (List Char) := do
  Reader.char '\x22'
  let body ← Reader.repeated do
    let c ← Reader.one fun c => isPlain c && c ≠ '\x22'
    if c = '\\' then escape else return c
  Reader.char '\x22'
  return body

def literalText : Reader (List Char) := do
  Reader.char '\''
  let body ← Reader.run fun c => isPlain c && c ≠ '\''
  Reader.char '\''
  return body

/-- Reads the quotes that end a text of several lines. Gives those that belong
to the text. -/
def closing (quote : Char) : Reader (List Char) := fun text =>
  let n := min 5 (text.takeWhile (· = quote)).length
  if 3 ≤ n then some (List.replicate (n - 3) quote, text.drop n) else none

/-- Reads the space that a backslash at the end of a line removes. -/
def foldedSpace : Reader (List Char) := do
  let _ ← Reader.run isBlank
  newline
  let _ ← Reader.repeated ((do let _ ← Reader.one isBlank) <|> newline)
  return []

/-- Reads a piece of a text of several lines. -/
def piece (quote : Char) (escapes : Bool) : Reader (List Char) := do
  match ← Reader.maybe (closing quote) with
  | some _ => failure
  | none =>
      (do newline; return ['\n']) <|> do
        let c ← Reader.one isPlain
        if escapes ∧ c = '\\' then foldedSpace <|> (do return [← escape]) else return [c]

def longText (quote : Char) (escapes : Bool) : Reader (List Char) := do
  Reader.exactly [quote, quote, quote]
  let _ ← Reader.maybe newline
  let body ← Reader.repeated (piece quote escapes)
  return body.flatten ++ (← closing quote)

def text : Reader String :=
  String.ofList <$>
    (longText '\x22' true <|> longText '\'' false <|> basicText <|> literalText)

/-! ## Numbers -/

def digits (base : Nat) : Reader (List Char) := do
  let first ← Reader.one (Reader.isDigitOf base)
  let rest ← Reader.repeated do
    let _ ← Reader.maybe (Reader.char '_')
    Reader.one (Reader.isDigitOf base)
  return first :: rest

/-- Reads a sign, if there is one, and says whether it is a minus. -/
def sign : Reader Bool := do
  return (← Reader.maybe (Reader.one fun c => c = '+' || c = '-')) = some '-'

/-- Reads decimal digits without a zero in front. -/
def decimal : Reader (List Char) := do
  let all ← digits 10
  if all.length = 1 ∨ all.head? ≠ some '0' then return all else failure

/-- The integers that can be written. -/
def isInteger (n : Int) : Bool := Int64.minValue.toInt ≤ n && n ≤ Int64.maxValue.toInt

def integer : Reader Int := do
  let based (mark : Char) (base : Nat) : Reader Int := do
    Reader.exactly ['0', mark]
    return (Reader.number base (← digits base) : Nat)
  let n ← based 'x' 16 <|> based 'o' 8 <|> based 'b' 2 <|> do
    let negative ← sign
    let n := Reader.number 10 (← decimal)
    return if negative then -(n : Int) else n
  if isInteger n then return n else failure

/-- Whether the number with these digits, times ten to the power of `e`, is
too large for a number of 64 bits with a binary point, after rounding. Far from
the limit, the count of the digits tells. -/
def isTooLarge (digits : List Char) (e : Int) : Bool :=
  let digits := digits.dropWhile (· = '0')
  let limit := Nat.pow 2 1024 - Nat.pow 2 970
  let n := Reader.number 10 digits
  if digits = [] ∨ digits.length + e < 308 then false
  else if 310 < digits.length + e then true
  else if 0 ≤ e then limit ≤ n * Nat.pow 10 e.toNat
  else limit * Nat.pow 10 (-e).toNat ≤ n

/-- Reads a number with a fraction or an exponent, or one of the values that
are no numbers. No number but a negative one may be too large. -/
def float : Reader Unit := do
  let negative ← sign
  (Reader.exactly ['i', 'n', 'f'] <|> Reader.exactly ['n', 'a', 'n']) <|> do
    let front ← decimal
    let fraction ← Reader.maybe do
      Reader.char '.'
      digits 10
    let power : Option Int ← Reader.maybe do
      let _ ← Reader.one fun c => c = 'e' || c = 'E'
      let negative ← sign
      let n := Reader.number 10 (← digits 10)
      return if negative then -(n : Int) else n
    if fraction.isNone ∧ power.isNone then failure
    else
      let fraction := fraction.getD []
      if !negative ∧ isTooLarge (front ++ fraction) (power.getD 0 - fraction.length) then failure

/-! ## Points in time -/

/-- Reads a number of so many digits that lies in a range. -/
def between (width low high : Nat) : Reader Nat := do
  let n := Reader.number 10 (← Reader.count Char.isDigit width)
  if low ≤ n ∧ n ≤ high then return n else failure

def daysIn (year month : Nat) : Nat :=
  if month = 2 then
    if year % 4 = 0 ∧ (year % 100 ≠ 0 ∨ year % 400 = 0) then 29 else 28
  else if month = 4 ∨ month = 6 ∨ month = 9 ∨ month = 11 then 30
  else 31

def date : Reader Unit := do
  let year ← between 4 0 9999
  Reader.char '-'
  let month ← between 2 1 12
  Reader.char '-'
  let _ ← between 2 1 (daysIn year month)

def time : Reader Unit := do
  let _ ← between 2 0 23
  Reader.char ':'
  let _ ← between 2 0 59
  Reader.char ':'
  let _ ← between 2 0 60
  let _ ← Reader.maybe do
    Reader.char '.'
    Reader.word Char.isDigit

/-- Reads the distance of a time from that of the meridian. -/
def offset : Reader Unit := do
  match ← Reader.one fun c => c = 'Z' || c = 'z' || c = '+' || c = '-' with
  | 'Z' | 'z' => return
  | _ =>
      let _ ← between 2 0 23
      Reader.char ':'
      let _ ← between 2 0 59

/-- Reads a point in time: a date, a time, or both. -/
def moment : Reader Unit :=
  (do
    date
    let _ ← Reader.maybe do
      let _ ← Reader.one fun c => c = 'T' || c = 't' || c = ' '
      time
      Reader.maybe offset) <|>
  time

/-! ## Scalars -/

/-- Reads a value that is no array and no table. -/
def scalar : Reader Value :=
  .text <$> text <|>
  (do moment; return .moment) <|>
  (do float; return .float) <|>
  .integer <$> integer <|>
  (do Reader.exactly ['t', 'r', 'u', 'e']; return .boolean true) <|>
  (do Reader.exactly ['f', 'a', 'l', 's', 'e']; return .boolean false)

end Toml

end SessionEngine
