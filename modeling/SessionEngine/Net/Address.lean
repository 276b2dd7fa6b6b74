import SessionEngine.Text.Reader

/-!
# Addresses

An address is a numeric host and a port. It is written `127.0.0.1:80` or
`[::1]:80`. Where that fails, the text before the last colon is a name, and it
is up to the name service of the system which host it stands for
(`Address.ofString?`). `Host.named?` is the service of a system that asks no
other hosts: it knows numbers of several bases, an address of the newer kind
without brackets, and the name of the machine itself.

`Address.toText` writes the first form, with the longest run of zero groups
left out.
-/

namespace SessionEngine

inductive Host where
  /-- Four bytes. -/
  | v4 (bits : UInt32)
  /-- Eight groups, and the scope if it is not zero. -/
  | v6 (groups : List UInt16) (scope : Nat)
deriving DecidableEq, Repr

structure Address where
  host : Host
  port : UInt16
deriving DecidableEq, Repr

/-- The host that a name stands for, the first if there are several. -/
abbrev NameService := String → Option Host

namespace Host

def ofBytes (bytes : List Nat) : UInt32 :=
  UInt32.ofNat (bytes.foldl (fun n b => 256 * n + b) 0)

def octets (bits : UInt32) : List Nat :=
  [bits >>> 24, bits >>> 16, bits >>> 8, bits].map fun b => b.toNat % 256

/-! ## Reading -/

/-- Reads a byte: up to three digits and no zero in front. -/
def octet : Reader Nat := do
  let digits ← Reader.word Char.isDigit
  let n := Reader.number 10 digits
  if digits.length ≤ 3 ∧ (digits.length = 1 ∨ digits.head? ≠ some '0') ∧ n < 256 then
    return n
  else failure

/-- Reads four bytes with points between them. -/
def dotted : Reader UInt32 := do
  let first ← octet
  let second ← next
  let third ← next
  return ofBytes [first, second, third, ← next]
where
  next : Reader Nat := do
    Reader.char '.'
    octet

/-- Reads a group of four digits at most. -/
def group : Reader UInt16 := do
  let digits ← Reader.word (Reader.isDigitOf 16)
  if digits.length ≤ 4 then return UInt16.ofNat (Reader.number 16 digits) else failure

def groupsOf (bits : UInt32) : List UInt16 :=
  [UInt16.ofNat (bits.toNat / 65536), UInt16.ofNat (bits.toNat % 65536)]

/-- Reads groups with colons between them; the last two may be four bytes. -/
def groups (bytesAllowed : Bool) : Reader (List UInt16) := fun text =>
  let piece : Reader (List UInt16) := do
    match ← Reader.maybe dotted with
    | some bits => if bytesAllowed then return groupsOf bits else failure
    | none => return [← group]
  match (Reader.separated piece (Reader.char ':')) text with
  | some (pieces, rest) =>
      if pieces.dropLast.all fun p => p.length = 1 then some (pieces.flatten, rest) else none
  | none => some ([], text)

/-- Reads eight groups. One stretch of zero groups may be left out. -/
def eightGroups : Reader (List UInt16) :=
  (do
    let all ← groups true
    if all.length = 8 then return all else failure) <|>
  (do
    let front ← groups false
    Reader.exactly [':', ':']
    let back ← groups true
    let missing := 8 - (front.length + back.length)
    if missing = 0 then failure
    else return front ++ List.replicate missing 0 ++ back)

/-- Reads a host of the newer kind and its scope. -/
def withScope : Reader Host := do
  let groups ← eightGroups
  let scope ← Reader.maybe do
    Reader.char '%'
    Reader.natural 10
  if scope.getD 0 < UInt32.size then return .v6 groups (scope.getD 0) else failure

/-- Whether a host of the newer kind is known on one link alone. -/
def isLocal (groups : List UInt16) : Bool :=
  match groups.head? with
  | some first => first &&& 0xffc0 = 0xfe80 || first &&& 0xff0f = 0xff02
  | none => false

/-- Reads a host that is known on one link alone, with the name of the link.
The one link that every machine has is the first. -/
def withLink : Reader Host := do
  let groups ← eightGroups
  Reader.exactly ['%', 'l', 'o']
  if isLocal groups then return .v6 groups 1 else failure

/-- Reads a number of one of three bases, told apart by what is in front. -/
def looseNumber : Reader Nat :=
  (do
    Reader.char '0'
    let _ ← Reader.one fun c => c = 'x' || c = 'X'
    Reader.natural 16) <|>
  (do
    Reader.char '0'
    let digits ← Reader.run (Reader.isDigitOf 8)
    return Reader.number 8 digits) <|>
  Reader.natural 10

/-- Reads one to four numbers with points between them: bytes, but for the
last, which fills what is left. -/
def loose : Reader UInt32 := do
  let parts ← Reader.separated looseNumber (Reader.char '.')
  let front := parts.dropLast
  let last := parts.getLast?.getD 0
  if parts.length ≤ 4 ∧ front.all (· < 256) ∧ last < Nat.pow 256 (5 - parts.length) then
    return UInt32.ofNat (front.zipIdx.foldl (fun n (b, i) => n + b * Nat.pow 256 (3 - i)) last)
  else failure

/-- The host that a text names without other hosts being asked. -/
def named? : NameService := fun text =>
  if text.toList.map Char.toLower = "localhost".toList then some (.v4 (ofBytes [127, 0, 0, 1]))
  else
    Reader.whole? (.v4 <$> loose) text <|> Reader.whole? withScope text <|>
      Reader.whole? withLink text

/-! ## Writing -/

/-- A number in digits of base sixteen. -/
def hex (group : UInt16) : String := String.ofList (Nat.toDigits 16 group.toNat)

def joinGroups (groups : List UInt16) : String := ":".intercalate (groups.map hex)

/-- How many zero groups begin at each place. -/
def zeroRuns : List UInt16 → List Nat
  | [] => []
  | g :: rest =>
      let runs := zeroRuns rest
      (if g = 0 then runs.headD 0 + 1 else 0) :: runs

/-- The groups with the first of the longest runs of zeros left out, if it has
at least two. -/
def compressed (groups : List UInt16) : String :=
  let runs := zeroRuns groups
  let longest := runs.foldl max 0
  if 1 < longest then
    let start := runs.idxOf longest
    joinGroups (groups.take start) ++ "::" ++ joinGroups (groups.drop (start + longest))
  else joinGroups groups

def dottedText (bits : UInt32) : String := ".".intercalate ((octets bits).map toString)

/-- The written host, without brackets. -/
def toText : Host → String
  | v4 bits => dottedText bits
  | v6 [0, 0, 0, 0, 0, 0xffff, high, low] _ =>
      "::ffff:" ++ dottedText (UInt32.ofNat (65536 * high.toNat + low.toNat))
  | v6 groups _ => compressed groups

end Host

namespace Address

def digits : Reader UInt16 := do
  let n ← Reader.natural 10
  if n < 65536 then return UInt16.ofNat n else failure

/-- Reads an address in the form in which addresses are written. -/
def written : Reader Address :=
  (do
    let bits ← Host.dotted
    Reader.char ':'
    return ⟨.v4 bits, ← digits⟩) <|>
  (do
    Reader.char '['
    let host ← Host.withScope
    Reader.char ']'
    Reader.char ':'
    return ⟨host, ← digits⟩)

/-- The text before the last colon, and the text behind it. -/
def splitLast (text : List Char) : Option (List Char × List Char) :=
  let back := text.reverse.takeWhile (· ≠ ':')
  if back.length = text.length then none
  else some (text.take (text.length - back.length - 1), back.reverse)

def ofString? (service : NameService) (text : String) : Option Address :=
  Reader.whole? written text <|> do
    let (host, port) ← splitLast text.toList
    let port := if port.head? = some '+' then port.tail else port
    return ⟨← service (String.ofList host), ← Reader.whole? digits (String.ofList port)⟩

def toText (a : Address) : String :=
  match a.host with
  | .v4 _ => s!"{a.host.toText}:{a.port}"
  | .v6 _ scope =>
      let scope := if scope = 0 then "" else s!"%{scope}"
      s!"[{a.host.toText}{scope}]:{a.port}"

end Address

end SessionEngine
