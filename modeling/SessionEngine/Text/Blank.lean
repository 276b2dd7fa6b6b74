/-!
# Blank characters

The characters of the Unicode property `White_Space`, and cutting the
characters of a class off both ends of a text.
-/

namespace SessionEngine

namespace Blank

def isBlank (c : Char) : Bool :=
  let n := c.toNat
  (9 ≤ n && n ≤ 13) || n = 0x20 || n = 0x85 || n = 0xA0 || n = 0x1680 ||
    (0x2000 ≤ n && n ≤ 0x200A) || n = 0x2028 || n = 0x2029 || n = 0x202F ||
    n = 0x205F || n = 0x3000

/-- Cuts the characters of a class off both ends. -/
def trimChars (cut : Char → Bool) (cs : List Char) : List Char :=
  ((cs.dropWhile cut).reverse.dropWhile cut).reverse

end Blank

end SessionEngine
