import SessionEngine.Bytes

/-!
# Text as UTF-8 bytes

A text field on the wire is UTF-8, but a peer may send any bytes. Reading is
therefore total: every longest run of bytes that cannot be completed to a
character becomes one replacement character (`decodeLossy`).

Writing into a field of fixed width cuts a text at a character boundary
(`truncate`): the result is the longest text that starts the given one and
fits (`length_encode_truncate_le`, `truncate_prefix`).
-/

namespace SessionEngine

namespace Utf8

/-! ## Writing -/

def encodeChars (cs : List Char) : Bytes :=
  cs.flatMap String.utf8EncodeChar

def encode (text : String) : Bytes :=
  encodeChars text.toList

/-! ## Reading -/

/-- Stands for bytes that are no character. -/
def replacement : Char := '\uFFFD'

/-- What the first byte of a longer character announces. -/
structure Lead where
  /-- How many bytes follow. -/
  following : Nat
  /-- The bits of the character that the first byte carries. -/
  bits : Nat
  /-- The smallest second byte: smaller ones would be a longer way to write
  a character that has a shorter one. -/
  low : Nat
  /-- The largest second byte: larger ones would leave the code space or
  fall into the surrogates. -/
  high : Nat

/-- The announcement of a first byte, if it can start a longer character. -/
def lead? (b : Nat) : Option Lead :=
  if b < 0xC2 then none
  else if b ≤ 0xDF then some ⟨1, b - 0xC0, 0x80, 0xBF⟩
  else if b = 0xE0 then some ⟨2, 0, 0xA0, 0xBF⟩
  else if b = 0xED then some ⟨2, 0xD, 0x80, 0x9F⟩
  else if b ≤ 0xEF then some ⟨2, b - 0xE0, 0x80, 0xBF⟩
  else if b = 0xF0 then some ⟨3, 0, 0x90, 0xBF⟩
  else if b ≤ 0xF3 then some ⟨3, b - 0xF0, 0x80, 0xBF⟩
  else if b = 0xF4 then some ⟨3, 4, 0x80, 0x8F⟩
  else none

/-- Reads the bytes that follow a first byte. The first byte out of range
ends the character early and is itself left to be read again. -/
def follow : (following value low high : Nat) → Bytes → Char × Bytes
  | 0, value, _, _, rest => (Char.ofNat value, rest)
  | _ + 1, _, _, _, [] => (replacement, [])
  | following + 1, value, low, high, b :: rest =>
      if low ≤ b.toNat ∧ b.toNat ≤ high then
        follow following (value * 64 + (b.toNat - 0x80)) 0x80 0xBF rest
      else (replacement, b :: rest)

theorem length_follow_le (following value low high : Nat) (bs : Bytes) :
    (follow following value low high bs).2.length ≤ bs.length := by
  induction following generalizing value low high bs with
  | zero => simp [follow]
  | succ following ih =>
      cases bs with
      | nil => simp [follow]
      | cons b rest =>
          simp only [follow]
          split
          · exact Nat.le_succ_of_le (ih ..)
          · exact Nat.le_refl _

/-- Reads one character, or the replacement, from the front. -/
def nextChar (b : UInt8) (rest : Bytes) : Char × Bytes :=
  if b.toNat < 0x80 then (Char.ofNat b.toNat, rest)
  else
    match lead? b.toNat with
    | none => (replacement, rest)
    | some lead => follow lead.following lead.bits lead.low lead.high rest

theorem length_nextChar_le (b : UInt8) (rest : Bytes) :
    (nextChar b rest).2.length ≤ rest.length := by
  unfold nextChar
  split
  · exact Nat.le_refl _
  · split
    · exact Nat.le_refl _
    · exact length_follow_le ..

def decodeChars : Bytes → List Char
  | [] => []
  | b :: rest => (nextChar b rest).1 :: decodeChars (nextChar b rest).2
termination_by bs => bs.length
decreasing_by simp only [List.length_cons]; exact Nat.lt_succ_of_le (length_nextChar_le ..)

/-- Reads every byte string as text. -/
def decodeLossy (bs : Bytes) : String :=
  String.ofList (decodeChars bs)

/-- The text that bytes encode, if they are the bytes of a text. -/
def decode? (bs : Bytes) : Option String :=
  let text := decodeLossy bs
  if encode text = bs then some text else none

/-! ## Cutting -/

/-- The longest list of characters that starts `cs` and takes at most
`limit` bytes. -/
def truncateChars : (limit : Nat) → (cs : List Char) → List Char
  | _, [] => []
  | limit, c :: cs =>
      if c.utf8Size ≤ limit then c :: truncateChars (limit - c.utf8Size) cs else []

/-- The longest text that starts `text` and takes at most `limit` bytes. -/
def truncate (limit : Nat) (text : String) : String :=
  String.ofList (truncateChars limit text.toList)

theorem length_encodeChars_cons (c : Char) (cs : List Char) :
    (encodeChars (c :: cs)).length = c.utf8Size + (encodeChars cs).length := by
  simp [encodeChars]

theorem length_encodeChars_truncateChars_le (limit : Nat) (cs : List Char) :
    (encodeChars (truncateChars limit cs)).length ≤ limit := by
  induction cs generalizing limit with
  | nil => simp [truncateChars, encodeChars]
  | cons c cs ih =>
      simp only [truncateChars]
      split
      next fits =>
          rw [length_encodeChars_cons]
          have := ih (limit - c.utf8Size)
          omega
      next => simp [encodeChars]

theorem truncateChars_prefix (limit : Nat) (cs : List Char) :
    truncateChars limit cs <+: cs := by
  induction cs generalizing limit with
  | nil => simp [truncateChars]
  | cons c cs ih =>
      simp only [truncateChars]
      split
      · exact List.cons_prefix_cons.mpr ⟨rfl, ih _⟩
      · exact List.nil_prefix

theorem length_encode_truncate_le (limit : Nat) (text : String) :
    (encode (truncate limit text)).length ≤ limit := by
  simpa [encode, truncate] using length_encodeChars_truncateChars_le limit text.toList

theorem truncate_prefix (limit : Nat) (text : String) :
    (truncate limit text).toList <+: text.toList := by
  simpa [truncate] using truncateChars_prefix limit text.toList

end Utf8

end SessionEngine
